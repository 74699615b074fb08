import ChipEight.Display.Terminal
import ChipEight.Display.Window

/-!
# ChipEight.Display.Basic

The three kinds of display: one in a terminal, one in a window, and a headless one, which only
remembers its size.

* `Display.resize`, `Display.setPixel`, `Display.refresh`, `Display.setTitle`: what every display
  does, each with the calls it makes to the host.
* `Display.pixelRequests`, `Display.titleRequests`: what else is asked of the host for that.
* `Display.whenRefused`: what is left of a change for which the host refuses a request.
-/

namespace ChipEight

/-- A display that shows nothing. -/
structure HeadlessDisplay where
  scale : Int
  width : Int
  height : Int
deriving DecidableEq, Repr

/-- A display of one of the three kinds. -/
inductive Display where
  | headless (d : HeadlessDisplay)
  | terminal (d : TerminalDisplay)
  | window (d : WindowDisplay)
deriving DecidableEq, Repr

namespace Display

/-- Why a display refused an operation. -/
inductive Fault where
  /-- The columns of a title cannot be counted. -/
  | columns (fault : Count.Fault)
  | window (fault : WindowDisplay.Fault)
deriving DecidableEq, Repr

/-- What a refused operation is reported as. -/
def Fault.message : Fault → String
  | .columns f => f.message
  | .window f => f.message

/-- A headless display. -/
def startHeadless (scale : Option Int) : Display := .headless ⟨scale.getD 1, 0, 0⟩

/-- The width and height of the picture. -/
def size : Display → Int × Int
  | .headless d => (d.width, d.height)
  | .terminal d => (d.width, d.height)
  | .window d => (d.width, d.height)

/-- How large a pixel is, in the measure of the kind of display. -/
def scale : Display → Int
  | .headless d => d.scale
  | .terminal d => d.scale
  | .window d => d.scale

/-- Begins a picture of another size. -/
def resize (display : Display) (width height : Int) :
    Display × List HostCall × Option Fault :=
  match display with
  | .headless d => (.headless { d with width, height }, [], none)
  | .terminal d =>
    let (d, calls) := d.resize width height
    (.terminal d, calls, none)
  | .window d =>
    let (d, calls, fault) := d.resize width height
    (.window d, calls, fault.map .window)

/-- Draws a pixel. -/
def setPixel (display : Display) (x y : Int) (lit : Bool) : Except Fault Display :=
  match display with
  | .headless d => .ok (.headless d)
  | .terminal d => .ok (.terminal (d.setPixel x y lit))
  | .window d => ((d.setPixel x y lit).map .window).mapError .window

/-- Draws a pixel where there is one. -/
def drawPixel (display : Display) (x y : Int) (lit : Bool) : Display :=
  match display with
  | .headless d => .headless d
  | .terminal d => .terminal (d.setPixel x y lit)
  | .window d => .window (d.drawPixel x y lit)

/-- Shows the picture if that is due. -/
def refresh (display : Display) (terminal : Terminal) (changed : Bool) :
    Display × List HostCall :=
  match display with
  | .headless d => (.headless d, [])
  | .terminal d =>
    let (d, calls) := d.refresh terminal changed
    (.terminal d, calls)
  | .window d => (.window d, d.refresh changed)

/-- Shows a title. Only the line of a terminal can be too wide for one. -/
def setTitle (display : Display) (title : String) : Except Fault (Display × List HostCall) :=
  match display with
  | .headless d => .ok (.headless d, [])
  | .terminal d => ((d.setTitle title).map fun d => (.terminal d, [])).mapError .columns
  | .window d => .ok (.window d, [.caption title])

/-- What drawing a pixel asks of the host. -/
def pixelRequests (display : Display) (x y : Int) (lit : Bool) : List Request :=
  match display with
  | .terminal d => [d.pixelRequest x y lit]
  | _ => []

/-- What showing a title asks of the host before the calls are made. -/
def titleRequests (display : Display) (title : String) : List Request :=
  match display with
  | .terminal d => [d.titleRequest title]
  | _ => []

@[simp] theorem calls_pixelRequests (display : Display) (x y : Int) (lit : Bool) :
    (display.pixelRequests x y lit).filterMap Request.call? = [] := by
  cases display <;> rfl

@[simp] theorem calls_titleRequests (display : Display) (title : String) :
    (display.titleRequests title).filterMap Request.call? = [] := by
  cases display <;> rfl

/-- The display after a change for which the host refused a request. A window has changed before it
asks for anything; every other display asks first. -/
def whenRefused (old changed : Display) : Display :=
  match changed with
  | .window _ => changed
  | _ => old

/-- Closes the display. -/
def stop : Display → List HostCall
  | .headless _ => []
  | .terminal _ => TerminalDisplay.stop
  | .window _ => WindowDisplay.stop

end Display
end ChipEight

import ChipEight.Checksum
import ChipEight.Count
import ChipEight.Display.Colour
import ChipEight.Host.Call
import ChipEight.Options.Argument
import ChipEight.Slice

/-!
# ChipEight.Display.Window

The screen in a window. Pixels are kept in a buffer of three bytes each, row by row, and the buffer
is stretched to the size of the window when it is shown.

* `WindowDisplay.paint`: sets the three bytes of a pixel.
* `WindowDisplay.setPixel`: the same, refused where the buffer has no such three bytes. A negative
  place counts from the end by the rule of `Slice`.
* `WindowDisplay.refresh`: shows the buffer if the picture has changed.
-/

namespace ChipEight

/-- The colours of dark and lit pixels. -/
structure Palette where
  background : Rgb
  foreground : Rgb
deriving DecidableEq, Repr

namespace Palette

/-- The colour of a pixel. -/
def colour (p : Palette) (lit : Bool) : Rgb := if lit then p.foreground else p.background

/-- The text of the background colour if none is given. -/
def usualBackground : String := "#000000"

/-- The text of the foreground colour if none is given. -/
def usualForeground : String := "#FFFFFF"

/-- Why colours make no palette. -/
inductive Fault where
  /-- A colour is given, but no text for it. -/
  | blank
  | colour (fault : Colour.Fault)
  /-- A value of the colour is not a byte. -/
  | notBytes (colour : Colour)
deriving DecidableEq, Repr

/-- What colours that make no palette are reported as. -/
def Fault.message : Fault → String
  | .blank => "A colour needs a value"
  | .colour f => f.message
  | .notBytes _ => "Each value of a colour is a number between 0 and 255"

/-- The bytes of a colour given as text. -/
def rgb (text : String) : Except Fault Rgb :=
  match Colour.parse text with
  | .error f => .error (.colour f)
  | .ok c =>
    match Rgb.ofColour c with
    | some rgb => .ok rgb
    | none => .error (.notBytes c)

/-- The bytes of a colour that may be left to its usual text. -/
def choose (usual : String) : Argument String → Except Fault Rgb
  | .absent => rgb usual
  | .blank => .error .blank
  | .value text => rgb text

/-- The palette of two colours given as text. The background is read first. -/
def read (background foreground : Argument String) : Except Fault Palette :=
  match choose usualBackground background with
  | .error f => .error f
  | .ok b =>
    match choose usualForeground foreground with
    | .error f => .error f
    | .ok f => .ok ⟨b, f⟩

end Palette

/-- A display in a window. -/
structure WindowDisplay where
  scale : Int
  width : Int
  height : Int
  palette : Palette
  /-- The number of pixels in a row of the buffer. -/
  stride : Int
  buffer : Array UInt8
deriving DecidableEq, Repr

namespace WindowDisplay

/-- Why a window refused an operation. -/
inductive Fault where
  /-- The number of bytes is no size of a buffer. -/
  | size (fault : Count.Fault)
  /-- The buffer has no three bytes at the place of the pixel. -/
  | outsideBuffer
deriving DecidableEq, Repr

/-- What a refused operation is reported as. -/
def Fault.message : Fault → String
  | .size f => f.message
  | .outsideBuffer => "The pixel lies outside the picture"

/-- The width of the window if none is given. -/
def usualScale : Int := 512

/-- The size of the window: half as high as it is wide. -/
def windowSize (scale : Int) : Int × Int := (scale, Int.fdiv scale 2)

/-- Sets the three bytes from a place on. -/
def paint (buffer : Array UInt8) (place : Nat) (c : Rgb) : Array UInt8 :=
  ((buffer.setIfInBounds place c.red).setIfInBounds (place + 1) c.green).setIfInBounds
    (place + 2) c.blue

/-- A buffer for `pixels` pixels of one colour. -/
def filled (pixels : Nat) (c : Rgb) : Array UInt8 :=
  ((List.replicate pixels [c.red, c.green, c.blue]).flatten).toArray

/-- The picture that the window would show. -/
def picture (d : WindowDisplay) : Picture :=
  let (w, h) := windowSize d.scale
  ⟨d.buffer.size, d.width, d.height, Checksum.adler32 d.buffer, w, h⟩

/-- Shows the buffer if the picture has changed, unless it is empty. -/
def refresh (d : WindowDisplay) (changed : Bool) : List HostCall :=
  if changed && !d.buffer.isEmpty then [.blit d.picture, .flip] else []

/-- Begins a picture of another size in the colour of dark pixels, and shows it. The width of a row
is taken over even if there is no buffer of that size. -/
def resize (d : WindowDisplay) (width height : Int) :
    WindowDisplay × List HostCall × Option Fault :=
  let pixels := width * height
  match Count.ofInt (pixels * 3) with
  | .error f => ({ d with stride := width }, [], some (.size f))
  | .ok _ =>
    let buffer := filled pixels.toNat (d.palette.colour false)
    let d := { d with width, height, stride := width, buffer }
    (d, d.refresh true, none)

/-- What is asked of the host before the size of the window is known. -/
def opening (title : String) : List HostCall := [.takeDisplay, .caption title]

/-- Opens a window. The window is there already when the colours turn out to be wrong. -/
def start (scale : Option Int) (background foreground : Argument String) (title : String) :
    List HostCall × Except Palette.Fault WindowDisplay :=
  let scale := scale.getD usualScale
  let (w, h) := windowSize scale
  (opening title ++ [.openWindow w h],
    (Palette.read background foreground).map fun palette => ⟨scale, 0, 0, palette, 0, #[]⟩)

/-- The place of the first byte of a pixel. -/
def place (d : WindowDisplay) (x y : Int) : Int := (y * d.stride + x) * 3

/-- Whether the buffer has the three bytes of a pixel. -/
def holds (d : WindowDisplay) (x y : Int) : Bool :=
  Slice.width d.buffer.size (d.place x y) (d.place x y + 3) == 3

/-- Draws a pixel that the buffer holds. -/
def paintAt (d : WindowDisplay) (x y : Int) (lit : Bool) : WindowDisplay :=
  { d with
    buffer := paint d.buffer (Slice.bound d.buffer.size (d.place x y)) (d.palette.colour lit) }

/-- Draws a pixel, if the buffer holds it. -/
def setPixel (d : WindowDisplay) (x y : Int) (lit : Bool) : Except Fault WindowDisplay :=
  if d.holds x y then .ok (d.paintAt x y lit) else .error .outsideBuffer

/-- Draws a pixel, or nothing if the buffer does not hold it. -/
def drawPixel (d : WindowDisplay) (x y : Int) (lit : Bool) : WindowDisplay :=
  if d.holds x y then d.paintAt x y lit else d

/-- Closes the window. -/
def stop : List HostCall := [.releaseDisplay]

end WindowDisplay
end ChipEight

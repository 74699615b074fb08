/-!
# ChipEight.CallStack

The stack of return addresses. It is no part of memory and has no register. A stack has a limit on
the number of its items or none; the machine's own has none.

* `CallStack.push`, `CallStack.pop`: both may be refused, and then nothing has changed.
* `CallStack.toList`: the items from the bottom to the top.
-/

namespace ChipEight

/-- A stack of return addresses that holds at most `limit` of them. The top comes first. -/
structure CallStack (limit : Option Int) where
  items : List Int
deriving DecidableEq, Repr

namespace CallStack

/-- Why a stack refused an operation. -/
inductive Fault where
  | overflow
  | underflow
deriving DecidableEq, Repr

/-- What a refused operation is reported as. -/
def Fault.message : Fault → String
  | .overflow => "Stack overflow"
  | .underflow => "Stack underflow"

variable {limit : Option Int}

/-- The stack without items. -/
def empty : CallStack limit := ⟨[]⟩

/-- The number of items. -/
def size (s : CallStack limit) : Nat := s.items.length

/-- Whether the limit leaves no room for another item. -/
def isFull (s : CallStack limit) : Bool :=
  limit.any (· ≤ (s.size : Int))

/-- Puts an address on top. -/
def push (s : CallStack limit) (address : Int) : Except Fault (CallStack limit) :=
  if s.isFull then .error .overflow else .ok ⟨address :: s.items⟩

/-- Takes the address on top. -/
def pop (s : CallStack limit) : Except Fault (Int × CallStack limit) :=
  match s.items with
  | [] => .error .underflow
  | address :: rest => .ok (address, ⟨rest⟩)

/-- The items from the bottom to the top. -/
def toList (s : CallStack limit) : List Int := s.items.reverse

/-- A stack without limit takes every address. -/
@[simp] theorem push_unlimited (s : CallStack none) (address : Int) :
    s.push address = .ok ⟨address :: s.items⟩ := rfl

end CallStack
end ChipEight

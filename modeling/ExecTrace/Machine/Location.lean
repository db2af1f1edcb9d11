import ExecTrace.Machine.State

/-
  This file defines what can be assigned to. The parts of a
  target are evaluated before the value, and checked after it.

  Key definitions include:
    * `Pending`
    * `Location`
    * `Pending.locate`
    * `Location.load`
    * `Location.store`
    * `Pending.read`
    * `Pending.write`
-/

namespace ExecTrace

open Run

/- A target whose parts are evaluated but not checked. -/
inductive Pending where
  | localVar (name : String)
  | static (cls field : String)
  | member (object : Val) (name : String)
  | element (array index : Val)
  deriving DecidableEq, Repr

/- A place that exists. -/
inductive Location where
  | localVar (name : String)
  | static (cls field : String)
  | member (address : Nat) (name : String)
  | element (address index : Nat)
  deriving DecidableEq, Repr

/- Check the parts of a target. -/
def Pending.locate
    (p : Program) : Pending → Run Location
  | .localVar name => pure (.localVar name)
  | .static cls name => pure (.static cls name)
  | .member (.obj a) name => pure (.member a name)
  | .member .null name =>
    raiseNull p ("access field " ++ name ++ " of")
  | .member v name => faultNaming (.fieldOf name) v
  | .element (.arr a) index => do
    let length := ((← get).heap.itemsOf a).size
    match index.asInt? with
    | none => faultShowing .arrayIndex index
    | some i =>
      if 0 ≤ i.toInt ∧ i.toInt < length then
        pure (.element a i.toInt.toNat)
      else
        raise p "ArrayIndexOutOfBoundsException"
          ("Index " ++ toString i.toInt
            ++ " out of bounds for length " ++ toString length)
  | .element .null _ => raiseNull p "index"
  | .element v _ => faultNaming .indexOf v

namespace Location

/- The value in a place. -/
def load (p : Program) : Location → Run Val
  | .localVar name => getLocal name
  | .static cls name => getStatic p cls name
  | .member a name => do
    let h := (← get).heap
    match (h.fieldsOf a).get? name with
    | some v => pure v
    | none => fault (.noField (h.classOf a) name)
  | .element a i => do
    match ((← get).heap.itemsOf a)[i]? with
    | some v => pure v
    | none => fault (.noElement i)

/- Put a value into a place. -/
def store
    (p : Program)
    (v : Val) : Location → Run Unit
  | .localVar name => setLocal name v
  | .static cls name => setStatic p cls name v
  | .member a name =>
    modify fun m => { m with heap := m.heap.setField a name v }
  | .element a i =>
    modify fun m => { m with heap := m.heap.setItem a i v }

end Location

namespace Pending

/- The value in the place that some parts lead to. -/
def read
    (p : Program)
    (pending : Pending) : Run Val := do
  let place ← pending.locate p
  place.load p

/- Put a value into the place that some parts lead to. -/
def write
    (p : Program)
    (v : Val)
    (pending : Pending) : Run Unit := do
  let place ← pending.locate p
  place.store p v

end Pending

end ExecTrace

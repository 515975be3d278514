/-!
# Reporting listeners

A listener that reports under its name how an operation ended. From inside, it may register another
listener of the same kind on the same handle, down to some depth. The handle is done by then, so the
inner listener runs to its end before the outer one goes on.
-/

namespace StoreClient

/-- A listener that reports, and registers `depth` listeners within each other. -/
structure Listener where
  name : String
  depth : Nat
  deriving DecidableEq, Repr

namespace Listener

/-- The reports of a listener and of those it registers. -/
def reports (success : Bool) : (depth : Nat) → (name : String) → List String
  | 0, name => [name ++ (if success then ":ok" else ":failed")]
  | depth + 1, name =>
    (name ++ (if success then ":ok" else ":failed")) :: reports success depth (name ++ ".") ++
      [name ++ ":end"]

/-- What a listener reports about an operation that ended. -/
def run (l : Listener) (success : Bool) : List String := reports success l.depth l.name

end Listener

end StoreClient

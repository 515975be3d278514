import StoreClient.Command.Delete
import StoreClient.Command.Fetch
import StoreClient.Coordinator

/-!
# Lists of commands

A list of commands for one batch, put together step by step, with a limit of its own if it has one.
-/

namespace StoreClient

/-- Commands for one batch. -/
structure Commands (α : Type) where
  toList : List α := []
  /-- The limit of the batch, instead of the configured one. -/
  limit : Option UInt64 := none

namespace Commands

variable {α : Type}

/-- No commands and no limit. -/
def empty : Commands α := {}

/-- The commands of a list, without a limit. -/
def ofList (l : List α) : Commands α := { toList := l }

/-- The commands to fetch the values at some locations. -/
def fetchAll (ls : List Location) : Commands (Command Fetch.signature) :=
  .ofList (ls.map fun l => Fetch.command { location := l })

/-- The commands to delete the values at some locations. -/
def deleteAll (ls : List Location) : Commands (Command Delete.signature) :=
  .ofList (ls.map fun l => Delete.command { location := l })

/-- Adds a command at the end. -/
def push (c : Commands α) (a : α) : Commands α := { c with toList := c.toList ++ [a] }

/-- Adds commands at the end. -/
def append (c : Commands α) (l : List α) : Commands α := { c with toList := c.toList ++ l }

/-- Sets the limit. -/
def withLimit (c : Commands α) (n : UInt64) : Commands α := { c with limit := some n }

/-- How many commands there are. -/
def size (c : Commands α) : Nat := c.toList.length

/-- Whether there are none. -/
def isEmpty (c : Commands α) : Bool := c.toList.isEmpty

/-- Gives the commands to a coordinator as one batch. -/
def execute {Index : Type} {kinds : Index → Signature} {i : Index}
    (c : Commands (Command (kinds i))) (coordinator : Coordinator kinds) :
    Except ConfigError (Coordinator kinds × List Notice) :=
  match c.limit with
  | none => .ok (coordinator.execute i c.toList)
  | some n => coordinator.executeWithLimit i c.toList n

end Commands

end StoreClient

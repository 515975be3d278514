import StoreClient.Operation

/-!
# Commands

A command is known by what identifies it, even before its request is made, and makes an operation or
tells why it cannot. An operation that is there already is a command too.
-/

namespace StoreClient

/-- Something that can be dispatched. -/
structure Command (σ : Signature) where
  query : σ.Query
  /-- The operation, or the reason why there is none. -/
  operation : Outcome (Operation σ)

namespace Command

variable {σ : Signature}

/-- The command that makes an operation of the given kind. -/
def ofKind (query : σ.Query) (kind : Outcome (Kind σ)) : Command σ where
  query := query
  operation := kind.map Operation.ofKind

/-- The command that is an operation already. -/
def ofOperation (op : Operation σ) : Command σ := ⟨op.kind.query, .ok op⟩

end Command

end StoreClient

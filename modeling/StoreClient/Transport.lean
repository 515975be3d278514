import StoreClient.Operation

/-!
# Transports

A transport takes requests and answers them, at once or later: each answer is a reply or a failure
of the connection. Here a transport is known by the answers it gives.
-/

namespace StoreClient

/-- What a transport does about a request. -/
inductive Answer where
  | reply (m : Message)
  | failure (c : Cause)
  deriving DecidableEq, Repr

namespace Operation

variable {σ : Signature}

/-- Gives an answer to an operation. Tells whether the operation is done then. -/
def answer (op : Operation σ) : Answer → Operation σ × Bool × List Notice
  | .reply m =>
    let (op, accepted, notices) := op.receive m
    (op, accepted.isFinished, notices)
  | .failure c =>
    let (op, _, notices) := op.fail c
    (op, op.isDone, notices)

/-- Gives answers to an operation one after another. -/
def answerAll (op : Operation σ) : List Answer → Operation σ × List Bool × List Notice
  | [] => (op, [], [])
  | a :: rest =>
    let (op, finished, notices) := op.answer a
    let (op, more, later) := op.answerAll rest
    (op, finished :: more, notices ++ later)

/-- Submits an operation to a transport that gives the answers at once. -/
def execute (op : Operation σ) (answers : List Answer) : Operation σ × List Bool × List Notice :=
  op.submit.answerAll answers

end Operation

end StoreClient

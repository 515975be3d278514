import StoreClient.Stream

/-!
# Errors of a client

What can go wrong before a request has a handle.
-/

namespace StoreClient

/-- Why a request was not made. -/
inductive ClientError where
  | config (e : ConfigError)
  | build (c : Cause)
  | stream (e : StreamError)
  | queue (e : QueueError)
  deriving DecidableEq, Repr

/-- The text of an error. -/
def ClientError.message : ClientError → String
  | config e => s!"invalid configuration: {e.message}"
  | build c => c.message
  | stream e => e.message
  | queue e => e.message

/-- Makes a stream of a kind, if there is one, the configuration is valid, and there can be a queue
of the capacity that it asks for. -/
def Stream.make {σ : Signature} {ι : Type} (kind : Except Cause (StreamKind σ ι))
    (c : StreamConfig) : Except ClientError (Stream σ ι) := do
  let k ← kind.mapError .build
  c.validate.mapError .config
  (reservePlaces c.queueCapacity.toNat k.itemOctets).mapError .queue
  return .ofKind k c

end StoreClient

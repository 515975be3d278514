import StoreClient.Pack.Value
import StoreClient.Document.Record

/-!
# Configuration

The settings of a client, in three sections: how batches are dispatched, how streams are queued and
polled, and how long a frame may be. Every setting has a default, and none may be zero; `validate`
names the first that is.

A time is written as whole milliseconds, as many as 64 bits hold. `validate` judges the exact time.
-/

namespace StoreClient

/-! ## Times -/

/-- A span of time. -/
structure Duration where
  nanoseconds : Nat
  deriving DecidableEq, Repr

namespace Duration

/-- A span of whole milliseconds. -/
def ofMilliseconds (n : Nat) : Duration := ⟨n * 1000000⟩

/-- A span of whole seconds. -/
def ofSeconds (n : Nat) : Duration := ⟨n * 1000000000⟩

/-- The whole milliseconds of a span, as many as 64 bits hold. -/
def milliseconds (d : Duration) : UInt64 :=
  UInt64.ofNat (min (d.nanoseconds / 1000000) (UInt64.size - 1))

theorem milliseconds_toNat (d : Duration) :
    d.milliseconds.toNat = min (d.nanoseconds / 1000000) (UInt64.size - 1) :=
  UInt64.toNat_ofNat_of_lt' (Nat.lt_of_le_of_lt (Nat.min_le_right _ _) (by decide))

end Duration

/-! ## What can be wrong -/

/-- Why a configuration is refused. -/
inductive ConfigError where
  | zero (field : String)
  deriving DecidableEq, Repr

/-- The text of an error. -/
def ConfigError.message : ConfigError → String
  | zero field => s!"{field} must be greater than zero"

/-- Refuses a setting that is zero. -/
def requireNonzero (field : String) (isZero : Bool) : Except ConfigError Unit :=
  if isZero then .error (.zero field) else .ok ()

/-- A count in a document. -/
def Document.toCount (d : Document) : Except DocumentError UInt64 :=
  match d.toNat .count with
  | .ok n => .ok (UInt64.ofNat n)
  | .error e => .error e

/-- A time in a document, in milliseconds. -/
def Document.toDuration (d : Document) : Except DocumentError Duration :=
  match d.toNat .u64 with
  | .ok n => .ok (.ofMilliseconds n)
  | .error e => .error e

/-! ## Streams -/

/-- How the partial results of a stream are queued and polled. -/
structure StreamConfig where
  /-- How long a consumer waits for an item, and a producer for room in the queue. -/
  pollTimeout : Duration := .ofSeconds 30
  /-- How many items may be queued. -/
  queueCapacity : UInt64 := 1024
  deriving DecidableEq, Repr

namespace StreamConfig

/-- Refuses a timeout or a capacity of zero. -/
def validate (c : StreamConfig) : Except ConfigError Unit := do
  requireNonzero "stream.poll_timeout" (c.pollTimeout.nanoseconds == 0)
  requireNonzero "stream.queue_capacity" (c.queueCapacity == 0)

/-- The written form of the section. -/
def toValue (c : StreamConfig) : Value :=
  .map [("pollTimeoutMs", .nat c.pollTimeout.milliseconds.toNat),
    ("queueCapacity", .nat c.queueCapacity.toNat)]

/-- The section in documents. -/
def record : Record StreamConfig where
  name := "StreamConfig"
  fields := [
    .of "pollTimeoutMs" Document.toDuration fun c d => { c with pollTimeout := d },
    .of "queueCapacity" Document.toCount fun c n => { c with queueCapacity := n }]
  initial := {}
  complete := false

end StreamConfig

/-! ## Frames -/

/-- How long a frame may be. -/
structure FrameConfig where
  /-- The most octets of a message, its code included. -/
  maxFrameLength : UInt64 := 64 * 1024 * 1024
  deriving DecidableEq, Repr

namespace FrameConfig

/-- Refuses a limit of zero. -/
def validate (c : FrameConfig) : Except ConfigError Unit :=
  requireNonzero "frame.max_frame_len" (c.maxFrameLength == 0)

/-- The written form of the section. -/
def toValue (c : FrameConfig) : Value := .map [("maxFrameLen", .nat c.maxFrameLength.toNat)]

/-- The section in documents. -/
def record : Record FrameConfig where
  name := "FrameConfig"
  fields := [.of "maxFrameLen" Document.toCount fun c n => { c with maxFrameLength := n }]
  initial := {}
  complete := false

end FrameConfig

/-! ## Batches -/

/-- How batches are dispatched. -/
structure FanOutConfig where
  /-- How many operations of a batch may be outstanding at once. -/
  maxInFlight : UInt64 := 10
  deriving DecidableEq, Repr

namespace FanOutConfig

/-- Refuses a limit of zero. -/
def validate (c : FanOutConfig) : Except ConfigError Unit :=
  requireNonzero "fan_out.max_in_flight" (c.maxInFlight == 0)

/-- The written form of the section. -/
def toValue (c : FanOutConfig) : Value := .map [("maxInFlight", .nat c.maxInFlight.toNat)]

/-- The section in documents. -/
def record : Record FanOutConfig where
  name := "FanOutConfig"
  fields := [.of "maxInFlight" Document.toCount fun c n => { c with maxInFlight := n }]
  initial := {}
  complete := false

end FanOutConfig

/-! ## All sections -/

/-- The configuration of a client. -/
structure ClientConfig where
  fanOut : FanOutConfig := {}
  stream : StreamConfig := {}
  frame : FrameConfig := {}
  deriving DecidableEq, Repr

namespace ClientConfig

/-- Refuses a configuration with a section that is refused, for the first such section. -/
def validate (c : ClientConfig) : Except ConfigError Unit := do
  c.fanOut.validate
  c.stream.validate
  c.frame.validate

/-- The written form of the configuration. -/
def toValue (c : ClientConfig) : Value :=
  .map [("fanOut", c.fanOut.toValue), ("stream", c.stream.toValue), ("frame", c.frame.toValue)]

/-- Configurations in documents. -/
def record : Record ClientConfig where
  name := "DriverConfig"
  fields := [
    .of "fanOut" FanOutConfig.record.read fun c s => { c with fanOut := s },
    .of "stream" StreamConfig.record.read fun c s => { c with stream := s },
    .of "frame" FrameConfig.record.read fun c s => { c with frame := s }]
  initial := {}
  complete := false

end ClientConfig

end StoreClient

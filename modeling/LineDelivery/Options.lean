import LineDelivery.Time
import LineDelivery.DeliveryError

/-!
# Options

What a writer can be told: when batches are cut, how often and how long they are retried, and how
much may wait between its parts. Durations are whole milliseconds. Sizes and durations are words of
64 bits; the number of retries and the base of the backoff are words of 32 bits.
-/

namespace LineDelivery

structure Options where
  batchSize : UInt64 := 5000
  maxBatchBytes : UInt64 := 50000000
  flushInterval : UInt64 := 1000
  maxRetries : UInt32 := 5
  retryBufferLimit : UInt64 := 50000
  retryInterval : UInt64 := 5000
  exponentialBase : UInt32 := 2
  maxRetryInterval : UInt64 := 125000
  retryJitter : UInt64 := 0
  maxRetryTime : UInt64 := 180000
  channelCapacity : UInt64 := 1
  deriving DecidableEq, Repr

namespace Options

inductive Field where
  | batchSize
  | maxBatchBytes
  | flushInterval
  | maxRetries
  | retryBufferLimit
  | retryInterval
  | exponentialBase
  | maxRetryInterval
  | retryJitter
  | maxRetryTime
  | channelCapacity
  deriving DecidableEq, Repr

namespace Field

/-- All fields, in the order in which they are written. -/
def all : List Field :=
  [batchSize, maxBatchBytes, flushInterval, maxRetries, retryBufferLimit, retryInterval,
    exponentialBase, maxRetryInterval, retryJitter, maxRetryTime, channelCapacity]

def name : Field → String
  | batchSize => "batch_size"
  | maxBatchBytes => "max_batch_bytes"
  | flushInterval => "flush_interval"
  | maxRetries => "max_retries"
  | retryBufferLimit => "retry_buffer_limit"
  | retryInterval => "retry_interval"
  | exponentialBase => "exponential_base"
  | maxRetryInterval => "max_retry_interval"
  | retryJitter => "retry_jitter"
  | maxRetryTime => "max_retry_time"
  | channelCapacity => "channel_capacity"

def ofName? (name : String) : Option Field :=
  all.find? fun field ↦ field.name == name

/-- The number of values a field can take. -/
def range : Field → Nat
  | maxRetries => Nat.pow 2 32
  | exponentialBase => Nat.pow 2 32
  | _ => Nat.pow 2 64

/-- The field holds milliseconds. -/
def isDuration : Field → Bool
  | flushInterval => true
  | retryInterval => true
  | maxRetryInterval => true
  | retryJitter => true
  | maxRetryTime => true
  | _ => false

end Field

def get (options : Options) : Field → Nat
  | .batchSize => options.batchSize.toNat
  | .maxBatchBytes => options.maxBatchBytes.toNat
  | .flushInterval => options.flushInterval.toNat
  | .maxRetries => options.maxRetries.toNat
  | .retryBufferLimit => options.retryBufferLimit.toNat
  | .retryInterval => options.retryInterval.toNat
  | .exponentialBase => options.exponentialBase.toNat
  | .maxRetryInterval => options.maxRetryInterval.toNat
  | .retryJitter => options.retryJitter.toNat
  | .maxRetryTime => options.maxRetryTime.toNat
  | .channelCapacity => options.channelCapacity.toNat

/-- Sets a field to a value within its range. -/
def set (options : Options) (field : Field) (value : Nat) : Options :=
  match field with
  | .batchSize => { options with batchSize := .ofNat value }
  | .maxBatchBytes => { options with maxBatchBytes := .ofNat value }
  | .flushInterval => { options with flushInterval := .ofNat value }
  | .maxRetries => { options with maxRetries := .ofNat value }
  | .retryBufferLimit => { options with retryBufferLimit := .ofNat value }
  | .retryInterval => { options with retryInterval := .ofNat value }
  | .exponentialBase => { options with exponentialBase := .ofNat value }
  | .maxRetryInterval => { options with maxRetryInterval := .ofNat value }
  | .retryJitter => { options with retryJitter := .ofNat value }
  | .maxRetryTime => { options with maxRetryTime := .ofNat value }
  | .channelCapacity => { options with channelCapacity := .ofNat value }

/-- Sets a field to a duration: whole milliseconds, held at the largest word. -/
def setDuration (options : Options) (field : Field) (duration : Nat) : Options :=
  options.set field (Time.toMillisWord duration)

/-- The duration that a field stands for. -/
def duration (options : Options) (field : Field) : Nat :=
  Time.ofMillis (options.get field)

/-- The fields that must not be zero, in the order in which they are checked. -/
def checked : List Field :=
  [.batchSize, .maxBatchBytes, .flushInterval, .retryBufferLimit, .exponentialBase,
    .channelCapacity]

def zeroMessage (field : Field) : String :=
  field.name ++
    if field = .exponentialBase then " must be at least 1" else " must be greater than zero"

/-- The first field that must not be zero and is. -/
def firstZero? (options : Options) : Option Field :=
  checked.find? fun field ↦ options.get field == 0

def check (options : Options) : Except DeliveryError Unit :=
  match options.firstZero? with
  | some field => .error (.configuration (zeroMessage field))
  | none => .ok ()

end Options

end LineDelivery

import PacedFeed.Double.Shortest
import PacedFeed.Text.Quoted

namespace PacedFeed

-- Why a settings file could not be read as text.
inductive ReadFailure where
  | missing
  | directory
  | notUtf8
  | nulInPath
  deriving DecidableEq

-- What is wrong with settings. Nothing is built from them then.
inductive ConfigError where
  | zeroCapacity
  | zeroBatchInterval
  | zeroBatchSize
  | zeroViewport
  | zeroRetention
  | invalidTargetFps (fps : Double)
  | invertedBudget (min max : Nat)
  | zeroMessageBytes
  | zeroBudget
  | invertedRatios (shrink grow : Double)
  | unusableFactors
  | unusableBatchBounds (min max : Nat)
  | unusableIntervalBounds (min max : Nat)
  | unreadable (path : String) (failure : ReadFailure)
  | malformed
  deriving DecidableEq

def ReadFailure.message : ReadFailure → String
  | .missing => "No such file or directory (os error 2)"
  | .directory => "Is a directory (os error 21)"
  | .notUtf8 => "stream did not contain valid UTF-8"
  | .nulInPath => "file name contained an unexpected NUL byte"

namespace ConfigError

def message : ConfigError → String
  | .zeroCapacity => "ring buffer capacity must be greater than zero"
  | .zeroBatchInterval => "batch interval must be greater than zero"
  | .zeroBatchSize => "max batch size must be greater than zero"
  | .zeroViewport => "viewport size must be greater than zero"
  | .zeroRetention => "max retained must be greater than zero"
  | .invalidTargetFps fps =>
    "target fps must be a positive finite number, got " ++ fps.text
  | .invertedBudget min max => s!"budget bounds are inverted: min {min} > max {max}"
  | .zeroMessageBytes => "invalid max_message_bytes: must be greater than zero"
  | .zeroBudget => "invalid budget.min: must be greater than zero"
  | .invertedRatios shrink grow =>
    "invalid budget.shrink_ratio: " ++ shrink.text ++ " must not exceed grow_ratio " ++ grow.text
  | .unusableFactors =>
    "invalid budget factors: grow_factor must be >= 1 and shrink_factor in (0, 1]"
  | .unusableBatchBounds min max =>
    s!"invalid tuning.batch_size: bounds {min}..={max} are not usable"
  | .unusableIntervalBounds min max =>
    s!"invalid tuning.interval: bounds {min}..={max} ms are not usable"
  | .unreadable path failure =>
    "failed to read config file " ++ quoted path ++ ": " ++ failure.message
  | .malformed => "failed to parse config"

end ConfigError

end PacedFeed

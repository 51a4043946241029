import Backpressure.Text.Quoted

/-!
# What can go wrong

* `Error` : the causes, one constructor each;
* `Error.message` : the text shown for a cause;
* `Error.isAnalytics` : the causes that belong to the analytics of one connection, which a runner pass survives.
-/

namespace Backpressure

/-- The causes of failure. -/
inductive Error where
  /-- No connection has this id. -/
  | unknownConnection (id : String)
  /-- The history store or the threshold directory failed. -/
  | sourceFailed (id reason : String)
  /-- The history did not arrive in time. -/
  | deadline (id seconds : String)
  /-- The history store holds nothing for a connection. -/
  | noHistory (note : String)
  /-- Too few observations for a model. -/
  | insufficientData (metric : String) (points minimum : Int)
  /-- The workers that fetch the history have been shut down. -/
  | workersStopped
  /-- A failure inside the history store or the threshold directory, of a kind they name. -/
  | raised (kind text : String)
  /-- No model kind has this name. -/
  | unknownModelKind (kind : String) (available : List String)
  /-- A model kind of this name is registered already. -/
  | modelKindTaken (kind : String)
  /-- A model was asked for a prediction before it had a line. -/
  | noFit
  /-- The line has no single crossing with a level. -/
  | noCrossing (level slope : String)
  /-- The crossing with a level is not a finite number. -/
  | crossingNotFinite (level : String)
  /-- A batch is given by rows of different lengths, or partly by rows. -/
  | unevenRows (items : Nat)
  /-- A batch holds no observation. -/
  | emptyBatch
  /-- A batch has more features than labels or fewer. -/
  | lengthMismatch (features labels : Nat)
  /-- A batch holds an infinite or undefined number. -/
  | observationNotFinite
  /-- The slope penalty of a ridge line is negative, infinite or undefined. -/
  | penaltyOutOfRange (penalty : String)
  /-- The equation for a line holds an infinite or undefined number. -/
  | arrayNotFinite
  /-- The square root of a negative number. -/
  | negativeRoot
  /-- A text that is no integer numeral. -/
  | invalidInteger (text : String)
  /-- An integer numeral with more digits than are read. -/
  | tooManyDigits (digits : Nat)
  /-- A text that is no decimal numeral. -/
  | invalidReal (text : String)
  /-- An integer was asked of NaN. -/
  | nanToInteger
  /-- An integer was asked of an infinity. -/
  | infinityToInteger
  /-- An integer beyond the range of binary64. -/
  | integerTooLarge
  /-- A number was asked of an absent value. -/
  | missingNumber
  /-- A value that is no data size, as messages show it. -/
  | invalidSize (shown : String)
  /-- A data size in a unit that is not defined. -/
  | unknownUnit (name : String)
  /-- A date before year 1 or after year 9999. -/
  | dateOutOfRange
  /-- A timestamp with an offset was compared with one without. -/
  | mixedOffsets
  /-- A span of time whose days do not fit a machine integer. -/
  | spanTooLong
  /-- A span of time of too many days. -/
  | spanOutOfRange (days : Int)
  /-- A number of seconds that the clock cannot count. -/
  | clockOverflow
  /-- A sleep of an undefined number of seconds. -/
  | sleepUndefined
  /-- A sleep of a negative number of seconds. -/
  | sleepNegative
  /-- A predicted time to backpressure without a positive number of milliseconds. -/
  | etaNeedsMillis
  /-- Milliseconds with a status that carries none. -/
  | etaCarriesMillis (status : String)
  /-- No status of a time to backpressure has this name. -/
  | unknownEtaStatus (name : String)
  /-- No metric has this name. -/
  | unsupportedMetric (name : String)
  /-- A window of no points. -/
  | maxPointsNotPositive (n : Int)
  /-- A configured window of no points. -/
  | lookbackPointsNotPositive (n : Int)
  /-- A configured window of no minutes. -/
  | lookbackMinutesNotPositive (n : Int)
  /-- No backend has this name. -/
  | unsupportedBackend (name : String)
  /-- The backend needs a database and there is none. -/
  | databaseUnavailable
  deriving DecidableEq, Repr

namespace Error

/-- How many characters of a quoted text the message about an integer numeral shows. -/
def shownCharacters : Nat := 200

def message : Error → String
  | unknownConnection id => "connection_id not found: " ++ id
  | sourceFailed id reason => "upstream failure for connection " ++ id ++ ": " ++ reason
  | deadline id seconds =>
    "upstream failure for connection " ++ id ++ ": history fetch exceeded " ++ seconds ++ "s deadline"
  | noHistory note => note
  | insufficientData metric points minimum =>
    "insufficient data for '" ++ metric ++ "': " ++ toString points ++ " points (min " ++ toString minimum ++ ")"
  | workersStopped => "cannot schedule new futures after shutdown"
  | raised _ text => text
  | unknownModelKind kind available =>
    "unknown model kind '" ++ kind ++ "'. Available: " ++
      (if available.isEmpty then "-" else String.intercalate ", " available)
  | modelKindTaken kind => "model kind already registered: " ++ kind
  | noFit => "model has no fit; call learn() with >= 2 observations"
  | noCrossing level slope => "no finite crossing for y=" ++ level ++ ": slope=" ++ slope
  | crossingNotFinite level => "non-finite crossing for y=" ++ level
  | unevenRows items =>
    "setting an array element with a sequence. The requested array has an inhomogeneous shape after 1 dimensions. " ++
      "The detected shape was (" ++ toString items ++ ",) + inhomogeneous part."
  | emptyBatch => "learn() requires at least one observation"
  | lengthMismatch features labels =>
    "features/labels length mismatch: " ++ toString features ++ " != " ++ toString labels
  | observationNotFinite => "features and labels must be finite"
  | penaltyOutOfRange penalty =>
    "The 'alpha' parameter of Ridge must be a float in the range [0.0, inf) or an array-like. Got " ++ penalty ++
      " instead."
  | arrayNotFinite => "array must not contain infs or NaNs"
  | negativeRoot => "math domain error"
  | invalidInteger text =>
    "invalid literal for int() with base 10: " ++
      String.ofList ((Text.quoteChars text.toList).take shownCharacters)
  | tooManyDigits digits =>
    "Exceeds the limit (4300 digits) for integer string conversion: value has " ++ toString digits ++
      " digits; use sys.set_int_max_str_digits() to increase the limit"
  | invalidReal text => "could not convert string to float: " ++ Text.quote text
  | nanToInteger => "cannot convert float NaN to integer"
  | infinityToInteger => "cannot convert float infinity to integer"
  | integerTooLarge => "int too large to convert to float"
  | missingNumber => "int() argument must be a string, a bytes-like object or a real number, not 'NoneType'"
  | invalidSize shown => "invalid data size: " ++ shown
  | unknownUnit name => Text.quote name
  | dateOutOfRange => "date value out of range"
  | mixedOffsets => "can't compare offset-naive and offset-aware datetimes"
  | spanTooLong => "Python int too large to convert to C int"
  | spanOutOfRange days => "days=" ++ toString days ++ "; must have magnitude <= 999999999"
  | clockOverflow => "timestamp too large to convert to C _PyTime_t"
  | sleepUndefined => "Invalid value NaN (not a number)"
  | sleepNegative => "sleep length must be non-negative"
  | etaNeedsMillis => "a predicted eta needs a positive millis value"
  | etaCarriesMillis status => "eta with status " ++ status ++ " cannot carry millis"
  | unknownEtaStatus name => Text.quote name ++ " is not a valid EtaStatus"
  | unsupportedMetric name => "Unsupported metric: " ++ name
  | maxPointsNotPositive n => "max_points must be positive, got " ++ toString n
  | lookbackPointsNotPositive n => "lookback_points must be positive, got " ++ toString n
  | lookbackMinutesNotPositive n => "lookback_minutes must be positive, got " ++ toString n
  | unsupportedBackend name => "Unsupported backend: " ++ name
  | databaseUnavailable => "no database is available"

/-- The causes that belong to the analytics of one connection. -/
def isAnalytics : Error → Bool
  | unknownConnection _ | sourceFailed _ _ | deadline _ _ | noHistory _ | insufficientData _ _ _ | unknownModelKind _ _
  | noFit | noCrossing _ _ | crossingNotFinite _ => true
  | _ => false

end Error

end Backpressure

import Telemetry.Gate.Ingest
import Telemetry.Number.Numeral
import Telemetry.Quota.Cache

/-!
# Settings

The configuration of the service, given as values by name or read from environment variables with a
common start of their names. Names of variables match in any case. A setting that is not given has
its default; a text can be empty, a number cannot, and a value that cannot be read makes the whole
configuration invalid.

Numbers are written in ASCII. An integer may have white space around it, zeros in front of it and a
fraction of zeros, and single underscores may stand inside it; another number may have white space
around it or underscores inside it, but not both.
-/

namespace Telemetry

/-- The configuration of the service. -/
structure Settings where
  warehouseUrl : String
  database : String
  user : String
  password : String
  warehouseTimeout : Double
  credentialsPath : String
  limitsUrl : Option String
  limitsSecret : Option String
  limitsTimeout : Double
  quotaTtl : Double
  quotaSweepInterval : Double
  defaultCap : Int
  logLevel : String
  host : String
  portNumber : Int

namespace Settings

/-- The configuration where no variable is set. -/
def default : Settings where
  warehouseUrl := "http://localhost:8123"
  database := "default"
  user := "default"
  password := ""
  warehouseTimeout := .ofInt 30
  credentialsPath := "wideevent.db"
  limitsUrl := none
  limitsSecret := none
  limitsTimeout := Quota.Cache.defaultTimeout
  quotaTtl := Quota.Cache.defaultTtl
  quotaSweepInterval := Quota.Cache.defaultSweepInterval
  defaultCap := Gate.defaultMonthlyCap
  logLevel := "INFO"
  host := "0.0.0.0"
  portNumber := 3005

/-! ## Integers -/

/-- What is left of an integer numeral when the zeros and underscores that follow a zero at its
start are dropped; `last` is the last of them. One of them stays if nothing else or a point comes
behind it. -/
def afterZeros? (last : Char) : List Char → Option (List Char)
  | [] => some [last]
  | c :: rest =>
    if c = '0' || c = '_' then afterZeros? c rest
    else if Text.isDigit c || c = '-' then some (c :: rest)
    else if c = '.' then some (last :: c :: rest)
    else none

/-- An integer numeral without the zeros in front of it, which may stand before its minus sign. -/
def dropZeros? : List Char → Option (List Char)
  | [] => none
  | c :: rest =>
    if c = '0' then afterZeros? c rest
    else if Text.isDigit c || c = '-' then some (c :: rest)
    else none

/-- A numeral without the plus sign in front of it; no minus sign may follow that. -/
def dropPlus? : List Char → Option (List Char)
  | '+' :: '-' :: _ => none
  | '+' :: rest => some rest
  | cs => some cs

/-- Removes a fraction that consists of zeros. -/
def dropZeroFraction (cs : List Char) : List Char :=
  let (whole, fraction) := Text.cutAt '.' cs
  if !fraction.isEmpty && fraction.all (· == '0') then whole else cs

/-- The characters without the underscores among them; none if one stands at an end or beside
another. -/
def joinParts? : List Char → Option (List Char)
  | [] => none
  | [c] => if c = '_' then none else some [c]
  | '_' :: _ => none
  | c :: '_' :: rest => (joinParts? rest).map (c :: ·)
  | c :: rest => (joinParts? rest).map (c :: ·)

/-- Reads an integer in its shortest form: zero, or a digit other than zero and more digits, with a
minus sign in front if it is negative. -/
def readShortInt? (cs : List Char) : Option Int :=
  let (negative, digits) := match cs with
    | '-' :: rest => (true, rest)
    | _ => (false, cs)
  let padded := digits.head? = some '0' ∧ digits ≠ ['0']
  if digits.isEmpty || !digits.all Text.isDigit || padded || cs.length > Numeral.maxDigits then none
  else
    let n := Text.decimalValue digits
    some (if negative then -(n : Int) else n)

/-- Reads an integer. -/
def readInt? (s : String) : Option Int := do
  let unsigned ← dropPlus? (Text.trim s.toList)
  let short ← dropZeros? unsigned
  let digits ← joinParts? (dropZeroFraction short)
  readShortInt? digits

/-- The integer that a value stands for: a number without a fraction that 64 bits can hold if it is
a double, a truth value as one or zero, or a text. -/
def intOf? : Json → Option Int
  | .bool b => some (if b then 1 else 0)
  | .int i => some i
  | .float x => (if x.isInteger then x.truncate? else none).filter fun i =>
      i.natAbs < Nat.pow 2 63
  | .str s => readInt? s
  | _ => none

/-! ## Other values -/

/-- Reads a number in ASCII that has neither white space nor underscores. -/
def readPlainDouble? (cs : List Char) : Option Double :=
  if cs.isEmpty || cs.any (fun c => c == '_' || Text.isBlank c || 0x80 ≤ c.toNat) then none
  else Numeral.readDouble? (String.ofList cs)

/-- Reads a number: with white space around it, or else with underscores inside it. -/
def readDouble? (s : String) : Option Double :=
  (readPlainDouble? (Text.trim s.toList)).or ((joinParts? s.toList).bind readPlainDouble?)

/-- The number that a value stands for. -/
def doubleOf? : Json → Option Double
  | .bool b => some (.ofInt (if b then 1 else 0))
  | .int i => some (.ofInt i) |>.filter Double.isFinite
  | .float x => some x
  | .str s => readDouble? s
  | _ => none

/-- The text or null that a value is. -/
def optionalTextOf? : Json → Option (Option String)
  | .null => some none
  | .str s => some (some s)
  | _ => none

/-! ## Configurations -/

/-- The value of a setting: its default if it is not given, none if it cannot be read. -/
def valueOf {α : Type} (read : Json → Option α) (name : String) (default : α)
    (values : Json.Object) : Option α :=
  match Assoc.find? name values with
  | some value => read value
  | none => some default

/-- The configuration with some values, if all of them can be read. -/
def ofValues? (values : Json.Object) : Option Settings := do
  let d := default
  let warehouseUrl ← valueOf Json.str? "clickhouse_url" d.warehouseUrl values
  let database ← valueOf Json.str? "clickhouse_database" d.database values
  let user ← valueOf Json.str? "clickhouse_user" d.user values
  let password ← valueOf Json.str? "clickhouse_password" d.password values
  let warehouseTimeout ←
    valueOf doubleOf? "clickhouse_timeout_seconds" d.warehouseTimeout values
  let credentialsPath ← valueOf Json.str? "credentials_db_path" d.credentialsPath values
  let limitsUrl ← valueOf optionalTextOf? "limits_url" d.limitsUrl values
  let limitsSecret ← valueOf optionalTextOf? "limits_secret" d.limitsSecret values
  let limitsTimeout ← valueOf doubleOf? "limits_timeout_seconds" d.limitsTimeout values
  let quotaTtl ← valueOf doubleOf? "quota_ttl_seconds" d.quotaTtl values
  let quotaSweepInterval ←
    valueOf doubleOf? "quota_sweep_interval_seconds" d.quotaSweepInterval values
  let defaultCap ← valueOf intOf? "default_events_per_month" d.defaultCap values
  let logLevel ← valueOf Json.str? "log_level" d.logLevel values
  let host ← valueOf Json.str? "host" d.host values
  let portNumber ← valueOf intOf? "port" d.portNumber values
  some
    { warehouseUrl
      database
      user
      password
      warehouseTimeout
      credentialsPath
      limitsUrl
      limitsSecret
      limitsTimeout
      quotaTtl
      quotaSweepInterval
      defaultCap
      logLevel
      host
      portNumber }

/-- The configuration with some values. -/
def ofValues (values : Json.Object) : Except Fault Settings :=
  match ofValues? values with
  | some settings => .ok settings
  | none => .error .badSettings

/-! ## Environments -/

/-- The start of the names of all variables. -/
def namesStart : String := "wideevent_"

/-- Lower case for the characters that have an ASCII letter as their lower case: the letters `A` to
`Z`, and the Kelvin sign. -/
def lowerNameChar (c : Char) : Char :=
  if c = '\u212A' then 'k' else Text.lowerChar c

/-- The variables of an environment by their names in lower case. Of several that differ in case
only, the last one counts. -/
def byLowerName (environment : List (String × String)) : List (String × String) :=
  Assoc.ofList ((Assoc.ofList environment).map fun (name, value) =>
    (String.ofList (name.toList.map lowerNameChar), value))

/-- The values that the variables of an environment give to settings. -/
def valuesOf (environment : List (String × String)) : Json.Object :=
  (byLowerName environment).filterMap fun (name, value) =>
    if namesStart.toList.isPrefixOf name.toList then
      some (String.ofList (name.toList.drop namesStart.length), .str value)
    else none

/-- The configuration in an environment. -/
def ofEnvironment (environment : List (String × String)) : Except Fault Settings :=
  ofValues (valuesOf environment)

/-- The settings by their names. -/
def toJson (s : Settings) : Json :=
  .obj [("clickhouse_url", .str s.warehouseUrl), ("clickhouse_database", .str s.database),
    ("clickhouse_user", .str s.user), ("clickhouse_password", .str s.password),
    ("clickhouse_timeout_seconds", .float s.warehouseTimeout),
    ("credentials_db_path", .str s.credentialsPath),
    ("limits_url", Json.ofOption .str s.limitsUrl),
    ("limits_secret", Json.ofOption .str s.limitsSecret),
    ("limits_timeout_seconds", .float s.limitsTimeout), ("quota_ttl_seconds", .float s.quotaTtl),
    ("quota_sweep_interval_seconds", .float s.quotaSweepInterval),
    ("default_events_per_month", .int s.defaultCap), ("log_level", .str s.logLevel),
    ("host", .str s.host), ("port", .int s.portNumber)]

end Settings

end Telemetry

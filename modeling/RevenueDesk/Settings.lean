/-
# Settings

What the service is configured with, read from environment variables.  A variable that is
set to a text has to make sense; one that is not set has a default, except for the address of
the database.  Numbers are read after trimming: an optional plus sign and decimal digits, of a
value that fits the type.

The value of a variable is a row of bytes, which need not be a text.  Then the address of the
database is refused, and any other variable counts as not set.
-/
import RevenueDesk.Number.Digits
import RevenueDesk.Text.Blank

namespace RevenueDesk

structure Settings where
  databaseUrl : String
  bindAddr : String
  dbMaxConnections : Nat
  nlSqlServiceUrl : String
  nlSqlTimeoutSecs : Nat
  sqlStatementTimeoutMs : Nat
deriving DecidableEq, Inhabited, Repr

/-! ## Numbers -/

/-- Why a text is not a number of the type asked for. -/
inductive NumeralError where
  | empty
  | invalidDigit
  | tooLarge
deriving DecidableEq, Repr

def NumeralError.message : NumeralError → String
  | empty => "cannot parse integer from empty string"
  | invalidDigit => "invalid digit found in string"
  | tooLarge => "number too large to fit in target type"

def largest32 : Nat := 0xFFFFFFFF

def largest64 : Nat := 0xFFFFFFFFFFFFFFFF

/-- Read the digits of a number up to `largest`, of which the first ones make up `value`.
Whatever is wrong first, from the left, is the reason. -/
def readDigits (largest value : Nat) : List Char → Except NumeralError Nat
  | [] => .ok value
  | c :: cs =>
    match Digits.digitValue? c with
    | none => .error .invalidDigit
    | some d =>
      if largest < value * 10 + d then .error .tooLarge
      else readDigits largest (value * 10 + d) cs

/-- Read an unsigned number up to `largest`. -/
def readUnsigned (largest : Nat) (text : String) : Except NumeralError Nat :=
  match text.toList with
  | [] => .error .empty
  | ['+'] => .error .invalidDigit
  | '+' :: cs => readDigits largest 0 cs
  | cs => readDigits largest 0 cs

/-! ## Variables -/

/-- What an environment has under a name. -/
inductive Held where
  | unset
  | text (raw : String)
  /-- Bytes that are no text in UTF-8, and how an error shows them. -/
  | notUnicode (shown : String)
deriving DecidableEq, Inhabited, Repr

/-- The text that is held, if it is one. -/
def Held.text? : Held → Option String
  | text raw => some raw
  | unset | notUnicode _ => none

inductive SettingsError where
  | missing (key : String)
  /-- A variable that has no default is not a text. -/
  | notUnicode (key shown : String)
  /-- The value of a variable makes no sense. -/
  | invalid (key value : String) (reason : NumeralError)
deriving DecidableEq, Repr

def SettingsError.message : SettingsError → String
  | missing key | notUnicode key _ => key ++ " deve ser definida"
  | invalid key value _ => key ++ " tem um valor inválido: '" ++ value ++ "'"

def SettingsError.cause : SettingsError → String
  | missing _ => "environment variable not found"
  | notUnicode _ shown => "environment variable was not valid unicode: " ++ shown
  | invalid _ _ reason => reason.message

/-- Read a variable from its text, if it has one. -/
def readVariable {α : Type} (key : String) (value : Option String) (default : α)
    (read : String → Except NumeralError α) : Except SettingsError α :=
  match value with
  | none => .ok default
  | some raw =>
    match read (Text.trimmed raw) with
    | .ok a => .ok a
    | .error reason => .error (.invalid key raw reason)

namespace Settings

/-- The settings that an environment gives; the first variable that is wrong if one is. -/
def ofEnvironment (env : String → Held) : Except SettingsError Settings := do
  let text key default := readVariable key (env key).text? default Except.ok
  let number key default largest :=
    readVariable key (env key).text? default (readUnsigned largest)
  let databaseUrl ← match env "DATABASE_URL" with
    | .text url => Except.ok url
    | .unset => Except.error (SettingsError.missing "DATABASE_URL")
    | .notUnicode shown => Except.error (SettingsError.notUnicode "DATABASE_URL" shown)
  let bindAddr ← text "BIND_ADDR" "0.0.0.0:8000"
  let dbMaxConnections ← number "DB_MAX_CONNECTIONS" 5 largest32
  let nlSqlServiceUrl ← text "NL_SQL_SERVICE_URL" "http://127.0.0.1:8001"
  let nlSqlTimeoutSecs ← number "NL_SQL_TIMEOUT_SECS" 30 largest64
  let sqlStatementTimeoutMs ← number "SQL_STATEMENT_TIMEOUT_MS" 15000 largest64
  return {
      databaseUrl := databaseUrl
      bindAddr := bindAddr
      dbMaxConnections := dbMaxConnections
      nlSqlServiceUrl := nlSqlServiceUrl
      nlSqlTimeoutSecs := nlSqlTimeoutSecs
      sqlStatementTimeoutMs := sqlStatementTimeoutMs }

end Settings

end RevenueDesk

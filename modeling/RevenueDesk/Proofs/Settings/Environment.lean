/-
# The settings of an environment

Every setting has a variable of its own.  The variables are read one after the other
(`mapM_readIn`), in the order of their declaration: all of them make sense, and the settings are
what they stand for, or the first of them that does not is what the error is about.  The settings
are therefore read exactly, and a variable matters to no other setting (`readExactly`).
-/
import RevenueDesk.Proofs.Settings.Formats

namespace RevenueDesk.Settings

open Outcome (map_eq_ok_iff map_eq_error_iff mapM_eq_ok_map_iff mapM_eq_error_iff)

/-! ## The variables -/

/-- The variables of the settings. -/
inductive Variable where
  | databaseUrl
  | bindAddr
  | dbMaxConnections
  | nlSqlServiceUrl
  | nlSqlTimeoutSecs
  | sqlStatementTimeoutMs

namespace Variable

/-- The variables in the order of their declaration. -/
def declared : List Variable :=
  [databaseUrl, bindAddr, dbMaxConnections, nlSqlServiceUrl, nlSqlTimeoutSecs,
    sqlStatementTimeoutMs]

lemma mem_declared (v : Variable) : v ∈ declared := by
  cases v <;> simp [declared]

/-- The name of a variable. -/
def key : Variable → String
  | databaseUrl => "DATABASE_URL"
  | bindAddr => "BIND_ADDR"
  | dbMaxConnections => "DB_MAX_CONNECTIONS"
  | nlSqlServiceUrl => "NL_SQL_SERVICE_URL"
  | nlSqlTimeoutSecs => "NL_SQL_TIMEOUT_SECS"
  | sqlStatementTimeoutMs => "SQL_STATEMENT_TIMEOUT_MS"

/-- What a variable may be. -/
def format : Variable → Format
  | databaseUrl => .required
  | bindAddr => .text "0.0.0.0:8000"
  | dbMaxConnections => .number 5 32
  | nlSqlServiceUrl => .text "http://127.0.0.1:8001"
  | nlSqlTimeoutSecs => .number 30 64
  | sqlStatementTimeoutMs => .number 15000 64

end Variable

/-- The setting that a variable is for. -/
def value (s : Settings) : Variable → Value
  | .databaseUrl => .text s.databaseUrl
  | .bindAddr => .text s.bindAddr
  | .dbMaxConnections => .number s.dbMaxConnections
  | .nlSqlServiceUrl => .text s.nlSqlServiceUrl
  | .nlSqlTimeoutSecs => .number s.nlSqlTimeoutSecs
  | .sqlStatementTimeoutMs => .number s.sqlStatementTimeoutMs

section Variables

variable {env : String → Held} {s s' : Settings} {e : SettingsError}

/-- What a variable is read as. -/
def readIn (env : String → Held) (v : Variable) : Except SettingsError Value :=
  v.format.read v.key (env v.key)

lemma eq_of_map_value (h : Variable.declared.map s.value = Variable.declared.map s'.value) :
    s = s' := by
  cases s
  cases s'
  simpa [Variable.declared, value] using h

/-- The settings are read one after the other. -/
lemma mapM_readIn (env : String → Held) : Variable.declared.mapM (readIn env) =
    (ofEnvironment env).map fun s => Variable.declared.map s.value := by
  have h32 : 2 ^ 32 - 1 = largest32 := rfl
  have h64 : 2 ^ 64 - 1 = largest64 := rfl
  simp only [Variable.declared, List.mapM_cons, List.mapM_nil, List.map_cons, List.map_nil, readIn,
    Variable.format, Variable.key, Format.read, h32, h64, ofEnvironment]
  generalize env "DATABASE_URL" = databaseUrl,
    readVariable "BIND_ADDR" _ _ _ = bindAddr,
    readVariable "DB_MAX_CONNECTIONS" _ _ _ = dbMaxConnections,
    readVariable "NL_SQL_SERVICE_URL" _ _ _ = nlSqlServiceUrl,
    readVariable "NL_SQL_TIMEOUT_SECS" _ _ _ = nlSqlTimeoutSecs,
    readVariable "SQL_STATEMENT_TIMEOUT_MS" _ _ _ = sqlStatementTimeoutMs
  -- the first error is the result on both sides
  cases databaseUrl with
  | unset => rfl
  | notUnicode _ => rfl
  | text _ =>
  cases bindAddr with
  | error _ => rfl
  | ok _ =>
  cases dbMaxConnections with
  | error _ => rfl
  | ok _ =>
  cases nlSqlServiceUrl with
  | error _ => rfl
  | ok _ =>
  cases nlSqlTimeoutSecs with
  | error _ => rfl
  | ok _ =>
  cases sqlStatementTimeoutMs with
  | error _ => rfl
  | ok _ => rfl

/-- An environment gives the settings that its variables stand for. -/
theorem ofEnvironment_eq_ok_iff :
    ofEnvironment env = .ok s ↔ ∀ v : Variable, v.format.Reads (env v.key) (s.value v) := by
  constructor
  · intro h v
    have hall := mapM_readIn env
    rw [h] at hall
    exact Format.read_eq_ok_iff.mp (mapM_eq_ok_map_iff.mp hall v v.mem_declared)
  · intro h
    have hall : Variable.declared.mapM (readIn env) = .ok (Variable.declared.map s.value) :=
      mapM_eq_ok_map_iff.mpr fun v _ => Format.read_eq_ok_iff.mpr (h v)
    rw [mapM_readIn, map_eq_ok_iff] at hall
    obtain ⟨s', hs', hvalues⟩ := hall
    rw [hs', eq_of_map_value hvalues]

/-- It gives none if a variable is wrong, and the first that is decides on the error. -/
theorem ofEnvironment_eq_error_iff : ofEnvironment env = .error e ↔
    ∃ before v after, Variable.declared = before ++ v :: after ∧
      (∀ u ∈ before, ∃ x, u.format.Reads (env u.key) x) ∧
      v.format.Complains v.key (env v.key) e := by
  rw [← map_eq_error_iff, ← mapM_readIn, mapM_eq_error_iff]
  simp only [readIn, Format.read_eq_ok_iff, Format.read_eq_error_iff]

end Variables

/-! ## Environments -/

/-- `v` is the first variable that makes no sense. -/
def Variable.FirstWrong (env : String → Held) (v : Variable) : Prop :=
  ∃ before after, declared = before ++ v :: after ∧
    (∀ u ∈ before, ∃ x, u.format.Reads (env u.key) x) ∧ ¬ ∃ x, v.format.Reads (env v.key) x

/-- An environment is read exactly, every variable by itself. -/
structure ReadExactly (env : String → Held) : Prop where
  /-- It gives settings if the database has an address and the texts for numbers are numbers. -/
  succeeds : (∃ s, ofEnvironment env = .ok s) ↔
    (∃ url, env "DATABASE_URL" = .text url) ∧
      (∀ raw, env "DB_MAX_CONNECTIONS" = .text raw → Format.IsNumber 32 raw) ∧
      (∀ raw, env "NL_SQL_TIMEOUT_SECS" = .text raw → Format.IsNumber 64 raw) ∧
      ∀ raw, env "SQL_STATEMENT_TIMEOUT_MS" = .text raw → Format.IsNumber 64 raw
  /-- They are what the variables stand for. -/
  settings : ∀ s, ofEnvironment env = .ok s ↔
    ∀ v : Variable, v.format.Reads (env v.key) (s.value v)
  /-- No variable matters to another setting than its own. -/
  alone : ∀ env' s s', ofEnvironment env = .ok s → ofEnvironment env' = .ok s' →
    ∀ v : Variable, env v.key = env' v.key → s.value v = s'.value v
  /-- An error is about the first variable that makes no sense. -/
  fails : ∀ e, ofEnvironment env = .error e → ∃ v : Variable, v.FirstWrong env ∧
    v.format.Complains v.key (env v.key) e ∧ e.message = Format.wording v.key (env v.key)

lemma exists_ofEnvironment_eq_ok_iff {env : String → Held} :
    (∃ s, ofEnvironment env = .ok s) ↔ ∀ v : Variable, ∃ x, v.format.Reads (env v.key) x := by
  constructor
  · rintro ⟨s, hs⟩ v
    exact ⟨_, ofEnvironment_eq_ok_iff.mp hs v⟩
  · intro h
    cases hread : ofEnvironment env with
    | ok s => exact ⟨s, rfl⟩
    | error e =>
      obtain ⟨_, v, _, -, -, hcomplains⟩ := ofEnvironment_eq_error_iff.mp hread
      exact absurd (h v) hcomplains.not_reads

/-- Settings are read exactly, and each from its own variable. -/
theorem readExactly (env : String → Held) : ReadExactly env where
  succeeds := by
    rw [exists_ofEnvironment_eq_ok_iff]
    constructor
    · intro h
      exact ⟨Format.reads_required_iff.mp (h .databaseUrl),
        Format.reads_number_iff.mp (h .dbMaxConnections),
        Format.reads_number_iff.mp (h .nlSqlTimeoutSecs),
        Format.reads_number_iff.mp (h .sqlStatementTimeoutMs)⟩
    · rintro ⟨hurl, hconnections, hservice, hstatement⟩ v
      cases v with
      | databaseUrl => exact Format.reads_required_iff.mpr hurl
      | bindAddr | nlSqlServiceUrl => exact Format.reads_text _ _
      | dbMaxConnections => exact Format.reads_number_iff.mpr hconnections
      | nlSqlTimeoutSecs => exact Format.reads_number_iff.mpr hservice
      | sqlStatementTimeoutMs => exact Format.reads_number_iff.mpr hstatement
  settings _ := ofEnvironment_eq_ok_iff
  alone env' s s' hs hs' v hv := by
    have hread := ofEnvironment_eq_ok_iff.mp hs' v
    rw [← hv] at hread
    exact (ofEnvironment_eq_ok_iff.mp hs v).unique hread
  fails e he := by
    obtain ⟨before, v, after, hdeclared, hbefore, hcomplains⟩ := ofEnvironment_eq_error_iff.mp he
    exact ⟨v, ⟨before, after, hdeclared, hbefore, hcomplains.not_reads⟩, hcomplains,
      hcomplains.message_eq⟩

/-- An environment in which the number of connections is no text. -/
def garbledConnections : String → Held
  | "DATABASE_URL" => .text "postgres://x"
  | "DB_MAX_CONNECTIONS" => .notUnicode "\"\\xFF\""
  | _ => .unset

/-- A number that is no text is passed over, and not reported. -/
theorem ofEnvironment_garbledConnections :
    garbledConnections "DB_MAX_CONNECTIONS" ≠ .unset ∧
      (∀ raw, garbledConnections "DB_MAX_CONNECTIONS" ≠ .text raw) ∧
      ofEnvironment garbledConnections =
        .ok ⟨"postgres://x", "0.0.0.0:8000", 5, "http://127.0.0.1:8001", 30, 15000⟩ := by
  refine ⟨by decide, fun raw h => by simp [garbledConnections] at h, ?_⟩
  rfl

end RevenueDesk.Settings

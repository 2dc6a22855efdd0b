/-
# What becomes of a query

A request that carries a query is answered without a single statement if its fields, the
guard or its parameters refuse it.  Otherwise the query of the client runs in a transaction
of its own, and everything about the answer is decided by what the server does.

* `ReadOnlyExchange` says what the exchange looks like: the statements that are sent, their
  order and what each of them waits for, and the status and the body of the answer;
* `answer_readOnly`: every request that carries a query is answered in this way.
-/
import Mathlib
import RevenueDesk.Proofs.Database.Script
import RevenueDesk.Proofs.Web.Answering

namespace RevenueDesk.Web

open Database (Statement Server opening wrappedQuery)

/-! ## Requests and payloads -/

/-- The request asks for the query of a payload: it is sent to the place for queries, says
that its body is JSON, is not too large, and its body holds the payload. -/
structure Carries (r : Request) (p : QueryPayload) : Prop where
  method_eq : r.method = "POST"
  route_eq : r.route = "/api/query/sql"
  says_json : saysJson r = true
  size_le : r.body.length ≤ largestBody
  body_eq : QueryPayload.ofBody r.body = .ok p

/-- The payload is let through and is run as `q`: its fields keep their rules, the guard
accepts the query, and putting the parameters in place gives `q`. -/
structure Admits (p : QueryPayload) (q : Sql.Prepared) : Prop where
  fields_ok : p.complaints = []
  accepted : Sql.accepts p.query.toList = true
  bound : Sql.bind (p.parameters.getD [])
    (String.ofList (Sql.stripTerminator p.query.toList)) = .ok q

lemma prepare_eq_ok_iff {p : QueryPayload} {q : Sql.Prepared} :
    prepare p = .ok q ↔ Admits p q := by
  constructor
  · intro h
    rcases hfields : p.complaints with _ | ⟨c, cs⟩
    · rcases haccepted : Sql.refusal? p.query.toList with _ | r
      · rcases hbound : Sql.bind (p.parameters.getD [])
          (String.ofList (Sql.stripTerminator p.query.toList)) with e | prepared
        · simp [prepare, hfields, haccepted, hbound] at h
        · have hq : prepared = q := by simpa [prepare, hfields, haccepted, hbound] using h
          exact ⟨hfields, by simp [Sql.accepts, haccepted], hq ▸ hbound⟩
      · simp [prepare, hfields, haccepted] at h
    · simp [prepare, hfields] at h
  · rintro ⟨hfields, haccepted, hbound⟩
    have hnone : Sql.refusal? p.query.toList = none := by
      simpa [Sql.accepts] using haccepted
    simp [prepare, hfields, hnone, hbound]

lemma Admits.unique {p : QueryPayload} {q q' : Sql.Prepared} (h : Admits p q)
    (h' : Admits p q') : q = q' := by
  have := h.bound.symm.trans h'.bound
  simpa using this

/-- A payload that is not let through fails with status 400. -/
lemma status_of_prepare_error {p : QueryPayload} {f : Failure} (h : prepare p = .error f) :
    f.response.status = 400 := by
  rcases hfields : p.complaints with _ | ⟨c, cs⟩
  · rcases haccepted : Sql.refusal? p.query.toList with _ | r
    · rcases hbound : Sql.bind (p.parameters.getD [])
        (String.ofList (Sql.stripTerminator p.query.toList)) with e | q
      · have hf : .missingParameter e.name = f := by
          simpa [prepare, hfields, haccepted, hbound] using h
        exact hf ▸ rfl
      · simp [prepare, hfields, haccepted, hbound] at h
    · have hf : .ofRefusal r = f := by simpa [prepare, hfields, haccepted] using h
      exact hf ▸ rfl
  · have hf : .invalidFields (c :: cs) = f := by simpa [prepare, hfields] using h
    exact hf ▸ rfl

/-- A request that carries a query is answered by running it. -/
lemma answer_of_carries (desk : Desk) {r : Request} {p : QueryPayload} (h : Carries r p) :
    desk.answer r = (desk.runQuery p).shared := by
  have hroute : Route.of? r.route =
      some (.post fun desk body => (QueryPayload.ofBody body).map desk.runQuery) := by
    rw [h.route_eq]
    rfl
  have hbody : (QueryPayload.ofBody r.body).map desk.runQuery = .ok (desk.runQuery p) := by
    rw [h.body_eq]
    rfl
  exact desk.answer_post hroute h.method_eq h.says_json h.size_le hbody

/-! ## The exchange -/

/-- The rows that a JSON value stands for. -/
inductive Holds : Json → List Json → Prop where
  | array (rows : List Json) : Holds (.array rows) rows
  | null : Holds .null []
  | single (v : Json) (harray : ∀ rows, v ≠ .array rows) (hnull : v ≠ .null) : Holds v [v]

/-- The names of the columns of a list of rows: the members of the first row, if it is an
object. -/
inductive Heads : List Json → List String → Prop where
  | object (members : List (String × Json)) (rows : List Json) :
      Heads (.object members :: rows) (members.map Prod.fst)
  | other (rows : List Json) (h : ∀ members tail, rows ≠ .object members :: tail) :
      Heads rows []

lemma holds_rowsOf (v : Json) : Holds v (Database.rowsOf v) := by
  cases v with
  | null => exact .null
  | array rows => exact .array rows
  | bool b => exact .single _ (by simp) (by simp)
  | number n => exact .single _ (by simp) (by simp)
  | string s => exact .single _ (by simp) (by simp)
  | object ms => exact .single _ (by simp) (by simp)

lemma heads_columnsOf (rows : List Json) : Heads rows (columnsOf rows) := by
  rcases rows with _ | ⟨v, rows⟩
  · exact .other [] (by simp)
  · cases v with
    | object ms => exact .object ms rows
    | null => exact .other _ (by simp)
    | bool b => exact .other _ (by simp)
    | number n => exact .other _ (by simp)
    | string s => exact .other _ (by simp)
    | array xs => exact .other _ (by simp)

/-- What becomes of a request that carries the query `p`. -/
structure ReadOnlyExchange (desk : Desk) (p : QueryPayload) (e : Exchange) : Prop where
  /-- The text of the client is sent only wrapped, only behind the three statements that
  open the transaction, which the server has all taken, and only once. -/
  query_sent : ∀ before text values after,
    e.statements = before ++ .query text values :: after →
      (∃ q, Admits p q ∧ .query text values = wrappedQuery q ∧ text = Sql.wrapped q.text) ∧
        before = [.begin, .setReadOnly, .setTimeout desk.statementTimeoutMs] ∧
        (∀ s ∈ before, desk.database.Takes s) ∧
        ∀ text' values', .query text' values' ∉ after
  /-- The transaction is committed only behind the query, which the server has taken and
  which has given a JSON value, and nothing follows. -/
  commit_sent : ∀ before after, e.statements = before ++ .commit :: after →
    (∃ q, Admits p q ∧
      before = opening desk.statementTimeoutMs ++ [wrappedQuery q]) ∧
      (∀ s ∈ before, desk.database.Takes s) ∧
      (∃ v, desk.database.result = .value v) ∧ after = []
  /-- A payload that is not let through is answered without the database. -/
  refused : (∀ q, ¬ Admits p q) → e.statements = [] ∧ e.response.status = 400
  /-- Rows come back exactly if every step has succeeded. -/
  status_ok_iff : ∀ q, Admits p q →
    (e.response.status = 200 ↔
      (∀ s ∈ opening desk.statementTimeoutMs ++ [wrappedQuery q, .commit],
        desk.database.Takes s) ∧ ∃ v, desk.database.result = .value v)
  /-- The rows are those of the value that the query has given. -/
  content_ok : ∀ q v, Admits p q → e.response.status = 200 → desk.database.result = .value v →
    ∃ rows columns, Holds v rows ∧ Heads rows columns ∧
      e.response.content = .json (.object
        [("success", .bool true), ("data", .array rows), ("columns", .ofStrings columns),
          ("rowCount", .ofNat rows.length), ("executionTimeMs", desk.elapsed),
          ("mode", .string "sql")])
  /-- The client is told what is wrong with the query exactly if the server rejects it. -/
  status_bad_iff : ∀ q, Admits p q →
    (e.response.status = 400 ↔
      (∀ s ∈ opening desk.statementTimeoutMs ++ [wrappedQuery q], desk.database.Takes s) ∧
        ∃ message, desk.database.result = .rejected message)
  /-- It is told in the words of the server. -/
  content_bad : ∀ q message, Admits p q → e.response.status = 400 →
    desk.database.result = .rejected message →
      e.response.content = .json (.object [("error", .string ("Database error: " ++ message))])
  /-- Any other failure is kept from the client. -/
  otherwise : ∀ q, Admits p q → e.response.status ≠ 200 → e.response.status ≠ 400 →
    e.response.status = 500 ∧
      e.response.content = .json (.object [("error", .string "An unexpected error occurred.")])

/-- Where the query can stand in what is sent. -/
lemma query_position {ms : Nat} {q : Sql.Prepared} {before after : List Statement}
    {text : String} {values : List Sql.BoundValue}
    (h : before ++ .query text values :: after <+: opening ms ++ [wrappedQuery q, .commit]) :
    before = opening ms ∧ .query text values = wrappedQuery q ∧ after <+: [.commit] := by
  obtain ⟨rest, hrest⟩ := h
  rcases before with _ | ⟨b₁, _ | ⟨b₂, _ | ⟨b₃, _ | ⟨b₄, _ | ⟨b₅, before⟩⟩⟩⟩⟩ <;>
    simp [opening, wrappedQuery] at hrest
  obtain ⟨rfl, rfl, rfl, ⟨rfl, rfl⟩, hafter⟩ := hrest
  exact ⟨rfl, rfl, ⟨rest, hafter⟩⟩

/-- Where the commit can stand in what is sent. -/
lemma commit_position {ms : Nat} {q : Sql.Prepared} {before after : List Statement}
    (h : before ++ .commit :: after <+: opening ms ++ [wrappedQuery q, .commit]) :
    before = opening ms ++ [wrappedQuery q] ∧ after = [] := by
  obtain ⟨rest, hrest⟩ := h
  rcases before with _ | ⟨b₁, _ | ⟨b₂, _ | ⟨b₃, _ | ⟨b₄, _ | ⟨b₅, before⟩⟩⟩⟩⟩ <;>
    simp [opening, wrappedQuery] at hrest
  obtain ⟨rfl, rfl, rfl, rfl, rfl, -⟩ := hrest
  exact ⟨rfl, rfl⟩

/-- The status that comes with the outcome of a query. -/
def statusOf : Except Database.DbFailure (List Json) → ℕ
  | .ok _ => 200
  | .error (.rejected _) => 400
  | .error .broken => 500

lemma statusOf_eq_ok_iff {outcome : Except Database.DbFailure (List Json)} :
    statusOf outcome = 200 ↔ ∃ rows, outcome = .ok rows := by
  rcases outcome with (_ | _) | _ <;> simp [statusOf]

lemma statusOf_eq_bad_iff {outcome : Except Database.DbFailure (List Json)} :
    statusOf outcome = 400 ↔ ∃ message, outcome = .error (.rejected message) := by
  rcases outcome with (_ | _) | _ <;> simp [statusOf]

section Running

variable (desk : Desk) {p : QueryPayload} {q : Sql.Prepared}

lemma runQuery_of_refused (h : ∀ q, ¬ Admits p q) :
    ∃ f, prepare p = .error f ∧ desk.runQuery p = .ofResponse f.response := by
  rcases hp : prepare p with f | q
  · exact ⟨f, rfl, by simp [Desk.runQuery, hp]⟩
  · exact absurd (prepare_eq_ok_iff.mp hp) (h q)

lemma statements_runQuery (h : Admits p q) :
    (desk.runQuery p).statements =
      (Database.runReadOnly desk.database desk.statementTimeoutMs q).sent := by
  simp only [Desk.runQuery, prepare_eq_ok_iff.mpr h]
  split <;> rfl

lemma response_of_rows {rows : List Json} (h : Admits p q)
    (ho : (Database.runReadOnly desk.database desk.statementTimeoutMs q).outcome = .ok rows) :
    (desk.runQuery p).response = .json 200 (queryReport desk.elapsed rows) := by
  simp [Desk.runQuery, prepare_eq_ok_iff.mpr h, ho]

lemma response_of_failure {e : Database.DbFailure} (h : Admits p q)
    (ho : (Database.runReadOnly desk.database desk.statementTimeoutMs q).outcome = .error e) :
    (desk.runQuery p).response = (Failure.ofDatabase e).response := by
  simp [Desk.runQuery, prepare_eq_ok_iff.mpr h, ho]

/-- The status tells how the query went. -/
lemma status_runQuery (h : Admits p q) : (desk.runQuery p).response.status =
    statusOf (Database.runReadOnly desk.database desk.statementTimeoutMs q).outcome := by
  rcases ho : (Database.runReadOnly desk.database desk.statementTimeoutMs q).outcome
    with (message | _) | rows
  · rw [response_of_failure desk h ho]
    rfl
  · rw [response_of_failure desk h ho]
    rfl
  · rw [response_of_rows desk h ho]
    rfl

/-- The statements that a query sends follow their script. -/
lemma Desk.follows (q : Sql.Prepared) :
    (Database.runReadOnly desk.database desk.statementTimeoutMs q).Follows desk.database
      (opening desk.statementTimeoutMs ++ [wrappedQuery q, .commit]) :=
  Database.runReadOnly_follows

/-- Running the query of a payload is an exchange that only reads. -/
lemma runQuery_readOnly (p : QueryPayload) : ReadOnlyExchange desk p (desk.runQuery p) where
  query_sent := by
    intro before text values after hsent
    by_cases hq : ∃ q, Admits p q
    · obtain ⟨q, hq⟩ := hq
      rw [statements_runQuery desk hq] at hsent
      have hfollows := desk.follows q
      obtain ⟨hbefore, hquery, hafter⟩ := query_position (hsent ▸ hfollows.in_order)
      have htext : text = Sql.wrapped q.text := by
        simp only [wrappedQuery, Statement.query.injEq] at hquery
        exact hquery.1
      refine ⟨⟨q, hq, hquery, htext⟩, hbefore, hfollows.taken_before _ _ _ hsent, ?_⟩
      intro text' values' hmem
      simpa using hafter.subset hmem
    · -- nothing is sent for a payload that is not let through
      obtain ⟨f, -, hrun⟩ := runQuery_of_refused desk (not_exists.mp hq)
      rw [hrun] at hsent
      simp [Exchange.ofResponse] at hsent
  commit_sent := by
    intro before after hsent
    by_cases hq : ∃ q, Admits p q
    · obtain ⟨q, hq⟩ := hq
      rw [statements_runQuery desk hq] at hsent
      have hfollows := desk.follows q
      obtain ⟨hbefore, hafter⟩ := commit_position (hsent ▸ hfollows.in_order)
      have hcommit :
          .commit ∈ (Database.runReadOnly desk.database desk.statementTimeoutMs q).sent := by
        rw [hsent]
        simp
      exact ⟨⟨q, hq, hbefore⟩, hfollows.taken_before _ _ _ hsent,
        Database.result_of_commit_sent hcommit, hafter⟩
    · obtain ⟨f, -, hrun⟩ := runQuery_of_refused desk (not_exists.mp hq)
      rw [hrun] at hsent
      simp [Exchange.ofResponse] at hsent
  refused := by
    intro h
    obtain ⟨f, hf, hrun⟩ := runQuery_of_refused desk h
    rw [hrun]
    exact ⟨rfl, status_of_prepare_error hf⟩
  status_ok_iff := by
    intro q hq
    rw [status_runQuery desk hq, statusOf_eq_ok_iff]
    constructor
    · rintro ⟨rows, ho⟩
      obtain ⟨htaken, v, hv, -⟩ := Database.runReadOnly_ok_iff.mp ho
      exact ⟨htaken, v, hv⟩
    · rintro ⟨htaken, v, hv⟩
      exact ⟨_, Database.runReadOnly_ok_iff.mpr ⟨htaken, v, hv, rfl⟩⟩
  content_ok := by
    intro q v hq hstatus hv
    rw [status_runQuery desk hq, statusOf_eq_ok_iff] at hstatus
    obtain ⟨rows, ho⟩ := hstatus
    obtain ⟨-, v', hv', rfl⟩ := Database.runReadOnly_ok_iff.mp ho
    obtain rfl : v' = v := by
      rw [hv] at hv'
      simpa using hv'.symm
    refine ⟨Database.rowsOf v', columnsOf (Database.rowsOf v'), holds_rowsOf v',
      heads_columnsOf _, ?_⟩
    rw [response_of_rows desk hq ho]
    rfl
  status_bad_iff := by
    intro q hq
    rw [status_runQuery desk hq, statusOf_eq_bad_iff]
    simp only [Database.runReadOnly_rejected_iff, exists_and_left]
  content_bad := by
    intro q message hq hstatus hmessage
    rw [status_runQuery desk hq, statusOf_eq_bad_iff] at hstatus
    obtain ⟨message', ho⟩ := hstatus
    obtain ⟨-, hresult⟩ := Database.runReadOnly_rejected_iff.mp ho
    obtain rfl : message' = message := by
      rw [hmessage] at hresult
      simpa using hresult.symm
    rw [response_of_failure desk hq ho]
    rfl
  otherwise := by
    intro q hq hok hbad
    rw [status_runQuery desk hq] at hok hbad
    rcases ho : (Database.runReadOnly desk.database desk.statementTimeoutMs q).outcome
      with (message | _) | rows
    · exact absurd (by rw [ho]; rfl) hbad
    · rw [response_of_failure desk hq ho]
      exact ⟨rfl, rfl⟩
    · exact absurd (by rw [ho]; rfl) hok

end Running

/-- A desk whose server takes everything but the commit. -/
def uncommitting : Desk where
  statementTimeoutMs := 15000
  questionBase := "http://127.0.0.1:8001"
  nameRules := fun _ => none
  database :=
    { down := false
      fails := fun s => match s with
        | .commit => true
        | _ => false
      revenue := []
      catalog := ⟨[], [], [], []⟩
      result := .value (.array [.object [("n", .ofInt 1)]]) }
  questions := fun _ _ => .down
  elapsed := .string "ms"

end RevenueDesk.Web

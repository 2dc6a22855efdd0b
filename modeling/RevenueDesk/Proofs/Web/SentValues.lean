/-
# The values of a query that is sent

Whatever a request carries, the values that reach the database with its query are those of the
parameters, each at the position of its name (`sent_values`).  A whole number beyond the signed
type is the exception: unless it is a double, the database is given another number.
-/
import Mathlib
import RevenueDesk.Proofs.Sql.Values
import RevenueDesk.Proofs.Web.QueryBody
import RevenueDesk.Proofs.Web.QueryExchange

namespace RevenueDesk.Web

open Database (opening wrappedQuery)
open Sql (BoundValue Denotes HandedOver ValuesByName)

section Sending

variable (desk : Desk) {p : QueryPayload} {q : Sql.Prepared}

/-- The only query that is sent is the one that is prepared. -/
lemma query_of_mem {text : String} {values : List BoundValue}
    (h : .query text values ∈ (desk.runQuery p).statements) :
    ∃ q, Admits p q ∧ text = Sql.wrapped q.text ∧ values = q.values.map .ofJson := by
  obtain ⟨before, after, hsent⟩ := List.append_of_mem h
  obtain ⟨⟨q, hq, hquery, htext⟩, -⟩ := (runQuery_readOnly desk p).query_sent _ _ _ _ hsent
  refine ⟨q, hq, htext, ?_⟩
  simp only [wrappedQuery, Database.Statement.query.injEq] at hquery
  exact hquery.2

/-- An answer with rows comes from a query that was sent. -/
lemma exists_query_of_ok (h : (desk.runQuery p).response.status = 200) :
    ∃ text values, .query text values ∈ (desk.runQuery p).statements := by
  by_cases hq : ∃ q, Admits p q
  · obtain ⟨q, hq⟩ := hq
    rw [status_runQuery desk hq, statusOf_eq_ok_iff] at h
    obtain ⟨rows, hrows⟩ := h
    refine ⟨Sql.wrapped q.text, q.values.map .ofJson, ?_⟩
    rw [statements_runQuery desk hq, ((desk.follows q).of_ok rows hrows).1]
    exact List.mem_append_right _ List.mem_cons_self
  · have hstatus := ((runQuery_readOnly desk p).refused (not_exists.mp hq)).2
    rw [h] at hstatus
    exact absurd hstatus (by decide)

end Sending

/-- Every answer with rows comes from a query that was sent, and the values of a query that is
sent are those of the parameters of the request, by the names for which their positions are
written. -/
theorem sent_values (desk : Desk) {r : Request} {p : QueryPayload} (h : Carries r p) :
    ((desk.answer r).response.status = 200 →
      ∃ text values, .query text values ∈ (desk.answer r).statements) ∧
    ∀ text values, .query text values ∈ (desk.answer r).statements →
      ∃ inner ts, text = Sql.wrapped inner ∧
        Sql.Scan (Sql.stripTerminator p.query.toList) ts ∧
        ValuesByName (p.parameters.getD []) ts inner.toList values := by
  rw [answer_of_carries desk h]
  refine ⟨exists_query_of_ok desk, fun text values hsent => ?_⟩
  obtain ⟨q, hq, htext, rfl⟩ := query_of_mem desk hsent
  have hrange : ∀ name v, Keyed.find? name (p.parameters.getD []) = some v → v.InRange :=
    fun name v hv => inRange_ofBody h.body_eq hv
  have hvalues := Sql.valuesByName hrange hq.bound
  rw [String.toList_ofList] at hvalues
  exact ⟨q.text, _, htext, Sql.scan_iff.mpr rfl, hvalues⟩

/-- A query for the second number beyond the signed type. -/
def wideQuery : Request where
  method := "POST"
  path := "/api/query/sql"
  headers := [("Content-Type", "application/json")]
  body := "\x7b\"query\":\"SELECT :n AS n\",\"parameters\":\x7b\"n\":9223372036854775809\x7d\x7d"
    |>.toUTF8.toList

/-- Its payload. -/
def widePayload : QueryPayload :=
  ⟨"SELECT :n AS n", some [("n", .ofInt 9223372036854775809)]⟩

lemma carries_wideQuery : Carries wideQuery widePayload :=
  ⟨rfl, by cbv, by cbv, by cbv, by cbv⟩

lemma admits_widePayload :
    Admits widePayload ⟨"SELECT $1 AS n", [.ofInt 9223372036854775809]⟩ where
  fields_ok := by cbv
  accepted := by decide +kernel
  bound := by cbv

theorem sent_values_wideQuery :
    Carries wideQuery widePayload ∧
    (((uncommitting.answer wideQuery).response.status = 200 →
      ∃ text values, .query text values ∈ (uncommitting.answer wideQuery).statements) ∧
    ∀ text values, .query text values ∈ (uncommitting.answer wideQuery).statements →
      ∃ inner ts, text = Sql.wrapped inner ∧
        Sql.Scan (Sql.stripTerminator widePayload.query.toList) ts ∧
        ValuesByName (widePayload.parameters.getD []) ts inner.toList values) :=
  ⟨carries_wideQuery, sent_values uncommitting carries_wideQuery⟩

/-- The database is asked about another number. -/
theorem sent_value_not_denoted :
    Carries wideQuery widePayload ∧
      ∃ text b, .query text [b] ∈ (uncommitting.answer wideQuery).statements ∧
        ¬ Denotes b (.ofInt 9223372036854775809) := by
  have hcoarse : Sql.Coarse (.ofInt 9223372036854775809) :=
    ⟨9223372036854775809, rfl, by decide, by decide⟩
  have hhanded : HandedOver (.ofInt 9223372036854775809)
      (.ofJson (.ofInt 9223372036854775809)) :=
    Sql.handedOver_ofJson (by simp [Json.ofInt]) (.whole _ ⟨by decide, by decide⟩)
  refine ⟨carries_wideQuery, Sql.wrapped "SELECT $1 AS n", _, ?_,
    fun hdenotes => hhanded.denotes_iff.mp hdenotes hcoarse⟩
  rw [answer_of_carries _ carries_wideQuery]
  show _ ∈ (uncommitting.runQuery widePayload).statements
  rw [statements_runQuery _ admits_widePayload]
  exact List.mem_append_right (opening 15000) List.mem_cons_self

end RevenueDesk.Web

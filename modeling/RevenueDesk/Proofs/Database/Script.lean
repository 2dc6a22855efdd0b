/-
# Runs that follow a script

Work on the database sends its statements in a fixed order and stops at the first one that
the server does not take.  This is said once, of a run and the *script* of its statements:
`Run.Follows` holds of every single statement, and one piece of work after another follows
the two scripts one after the other (`Run.Follows.andThen`).

The query of a client follows the script that opens a transaction, lets it only read, limits
its time, asks the query and commits (`runReadOnly_follows`).  Its outcome is told by what
the server does with the statements of the script (`runReadOnly_ok_iff`,
`runReadOnly_rejected_iff`).
-/
import Mathlib.Tactic.Common
import RevenueDesk.Database.Run

namespace RevenueDesk.Database

/-- The server takes the statement: it lets the service in, and the statement does not
fail. -/
def Server.Takes (db : Server) (s : Statement) : Prop := db.down = false ∧ db.fails s = false

namespace Run

variable {α β : Type} {db : Server}

/-- A run follows a script if what it sends is a beginning of it, every statement is sent
only behind statements that the server has taken, and a run that gives something has sent
the whole script, and the server has taken all of it. -/
structure Follows (db : Server) (script : List Statement) (r : Run α) : Prop where
  in_order : r.sent <+: script
  taken_before : ∀ before s after, r.sent = before ++ s :: after → ∀ t ∈ before, db.Takes t
  of_ok : ∀ a, r.outcome = .ok a → r.sent = script ∧ ∀ s ∈ script, db.Takes s

lemma follows_done (a : α) : (done a).Follows db [] where
  in_order := List.prefix_rfl
  taken_before := by
    intro before s after h
    simp [done] at h
  of_ok := by simp [done]

lemma follows_fail (e : DbFailure) : (fail e : Run α).Follows db [] where
  in_order := List.prefix_rfl
  taken_before := by
    intro before s after h
    simp [fail] at h
  of_ok := by simp [fail]

/-- One piece of work after another follows the two scripts one after the other. -/
lemma Follows.andThen {script₁ script₂ : List Statement} {r : Run α} {f : α → Run β}
    (hr : r.Follows db script₁) (hf : ∀ a, r.outcome = .ok a → (f a).Follows db script₂) :
    (r.andThen f).Follows db (script₁ ++ script₂) := by
  rcases ho : r.outcome with e | a
  · -- the second piece is not begun
    have hrun : r.andThen f = ⟨r.sent, .error e⟩ := by simp [Run.andThen, ho]
    rw [hrun]
    refine ⟨hr.in_order.trans (List.prefix_append _ _), hr.taken_before, ?_⟩
    intro b hb
    exact absurd hb (by simp)
  · have hrun : r.andThen f = ⟨r.sent ++ (f a).sent, (f a).outcome⟩ := by
      simp [Run.andThen, ho]
    obtain ⟨hsent, htaken⟩ := hr.of_ok a ho
    have hfa := hf a ho
    rw [hrun, hsent]
    refine ⟨(List.prefix_append_right_inj _).mpr hfa.in_order, ?_, ?_⟩
    · intro before s after h t ht
      rcases List.append_eq_append_iff.mp h with ⟨c, rfl, hc⟩ | ⟨c, rfl, _⟩
      · -- `s` belongs to the second script
        rcases List.mem_append.mp ht with ht | ht
        · exact htaken t ht
        · exact hfa.taken_before c s after hc t ht
      · exact htaken t (List.mem_append_left _ ht)
    · intro b hb
      obtain ⟨hsent₂, htaken₂⟩ := hfa.of_ok b hb
      refine ⟨by rw [hsent₂], ?_⟩
      intro s hs
      rcases List.mem_append.mp hs with hs | hs
      · exact htaken s hs
      · exact htaken₂ s hs

/-! ## Outcomes -/

lemma andThen_ok_iff {r : Run α} {f : α → Run β} {b : β} :
    (r.andThen f).outcome = .ok b ↔ ∃ a, r.outcome = .ok a ∧ (f a).outcome = .ok b := by
  rcases ho : r.outcome with e | a <;> simp [Run.andThen, ho]

lemma andThen_error_iff {r : Run α} {f : α → Run β} {e : DbFailure} :
    (r.andThen f).outcome = .error e ↔
      r.outcome = .error e ∨ ∃ a, r.outcome = .ok a ∧ (f a).outcome = .error e := by
  rcases ho : r.outcome with e' | a <;> simp [Run.andThen, ho]

lemma done_ok_iff {a b : α} : (done a).outcome = .ok b ↔ a = b := by simp [done]

lemma done_ne_error {a : α} {e : DbFailure} : (done a).outcome ≠ .error e := by simp [done]

end Run

open Run

variable {db : Server}

/-! ## Single statements -/

lemma send_of_takes {s : Statement} (h : db.Takes s) : send db s = ⟨[s], .ok ()⟩ := by
  simp [send, h.1, h.2]

lemma send_of_not_takes {s : Statement} (h : ¬ db.Takes s) :
    send db s = fail .broken ∨ send db s = ⟨[s], .error .broken⟩ := by
  unfold send
  split
  · exact Or.inl rfl
  · rename_i hdown
    split
    · exact Or.inr rfl
    · rename_i hfails
      exact absurd ⟨by simpa using hdown, by simpa using hfails⟩ h

/-- Nothing stands before the only statement of a run. -/
lemma taken_before_single {s : Statement} (before : List Statement) (t : Statement)
    (after : List Statement) (h : [s] = before ++ t :: after) : ∀ u ∈ before, db.Takes u := by
  obtain ⟨rfl, -⟩ | ⟨-, hc⟩ := List.singleton_eq_append_iff.mp h
  · simp
  · simp at hc

/-- Sending a statement follows the script of this one statement. -/
lemma send_follows (s : Statement) : (send db s).Follows db [s] := by
  by_cases h : db.Takes s
  · rw [send_of_takes h]
    exact ⟨List.prefix_rfl, taken_before_single, fun _ _ => ⟨rfl, by simpa using h⟩⟩
  · rcases send_of_not_takes h with hs | hs <;> rw [hs]
    · exact ⟨List.nil_prefix, by simp [Run.fail], by simp [Run.fail]⟩
    · exact ⟨List.prefix_rfl, taken_before_single, by simp⟩

lemma send_ok_iff {s : Statement} {u : Unit} : (send db s).outcome = .ok u ↔ db.Takes s := by
  by_cases h : db.Takes s
  · simp [send_of_takes h, h]
  · rcases send_of_not_takes h with hs | hs <;> simp [hs, h, Run.fail]

lemma send_error_iff {s : Statement} {e : DbFailure} :
    (send db s).outcome = .error e ↔ e = .broken ∧ ¬ db.Takes s := by
  by_cases h : db.Takes s
  · simp [send_of_takes h, h]
  · rcases send_of_not_takes h with hs | hs <;> simp [hs, h, Run.fail, eq_comm]

/-! ## The query of a client -/

/-- The statements that open the transaction in which the query of a client runs. -/
def opening (timeoutMs : Nat) : List Statement := [.begin, .setReadOnly, .setTimeout timeoutMs]

/-- The query of a client as it is sent. -/
def wrappedQuery (query : Sql.Prepared) : Statement :=
  .query (Sql.wrapped query.text) (query.values.map Sql.BoundValue.ofJson)

variable {timeoutMs : Nat} {query : Sql.Prepared}

lemma readResult_follows (r : QueryResult) : (readResult r).Follows db [] := by
  cases r with
  | value v => exact follows_done v
  | unreadable => exact follows_fail _
  | rejected message => exact follows_fail _

lemma readResult_ok_iff {r : QueryResult} {v : Json} :
    (readResult r).outcome = .ok v ↔ r = .value v := by
  cases r <;> simp [readResult, Run.done, Run.fail]

lemma readResult_rejected_iff {r : QueryResult} {message : String} :
    (readResult r).outcome = .error (.rejected message) ↔ r = .rejected message := by
  cases r <;> simp [readResult, Run.done, Run.fail]

/-- The query of a client, run as one piece of work after another. -/
lemma runReadOnly_eq :
    runReadOnly db timeoutMs query =
      (send db .begin).andThen fun _ => (send db .setReadOnly).andThen fun _ =>
        (send db (.setTimeout timeoutMs)).andThen fun _ =>
          (send db (wrappedQuery query)).andThen fun _ =>
            (readResult db.result).andThen fun v =>
              (send db .commit).andThen fun _ => done (rowsOf v) := rfl

/-- The query of a client follows the script that opens the transaction, asks the query and
commits. -/
theorem runReadOnly_follows :
    (runReadOnly db timeoutMs query).Follows db
      (opening timeoutMs ++ [wrappedQuery query, .commit]) := by
  rw [runReadOnly_eq]
  refine (send_follows .begin).andThen fun _ _ => ?_
  refine (send_follows .setReadOnly).andThen fun _ _ => ?_
  refine (send_follows (.setTimeout timeoutMs)).andThen fun _ _ => ?_
  refine (send_follows (wrappedQuery query)).andThen fun _ _ => ?_
  have hrest : ∀ v, ((send db .commit).andThen fun _ => done (rowsOf v)).Follows db [.commit] :=
    fun v => (send_follows .commit).andThen fun _ _ => follows_done (rowsOf v)
  exact (readResult_follows db.result).andThen fun v _ => hrest v

/-- If no value can be read, the script ends with the query. -/
lemma runReadOnly_follows_of_fail {e : DbFailure} (h : readResult db.result = fail e) :
    (runReadOnly db timeoutMs query).Follows db (opening timeoutMs ++ [wrappedQuery query]) := by
  rw [runReadOnly_eq]
  refine (send_follows .begin).andThen fun _ _ => ?_
  refine (send_follows .setReadOnly).andThen fun _ _ => ?_
  refine (send_follows (.setTimeout timeoutMs)).andThen fun _ _ => ?_
  have hrest : ((readResult db.result).andThen fun v =>
      (send db .commit).andThen fun _ => done (rowsOf v)).Follows db [] := by
    rw [h]
    exact follows_fail e
  exact (send_follows (wrappedQuery query)).andThen fun _ _ => hrest

/-- The transaction is committed only when a value has been read. -/
theorem result_of_commit_sent (h : .commit ∈ (runReadOnly db timeoutMs query).sent) :
    ∃ v, db.result = .value v := by
  have hnone : ∀ e, readResult db.result ≠ fail e := by
    intro e he
    have := (runReadOnly_follows_of_fail he).in_order.subset h
    simp [opening, wrappedQuery] at this
  cases hr : db.result with
  | value v => exact ⟨v, rfl⟩
  | unreadable => exact absurd (by rw [hr]; rfl) (hnone .broken)
  | rejected message => exact absurd (by rw [hr]; rfl) (hnone (.rejected message))

/-- Rows come back exactly if the server takes the whole script and the query gives a
value. -/
theorem runReadOnly_ok_iff {rows : List Json} :
    (runReadOnly db timeoutMs query).outcome = .ok rows ↔
      (∀ s ∈ opening timeoutMs ++ [wrappedQuery query, .commit], db.Takes s) ∧
        ∃ v, db.result = .value v ∧ rowsOf v = rows := by
  rw [runReadOnly_eq]
  simp only [andThen_ok_iff, send_ok_iff, readResult_ok_iff, done_ok_iff, opening,
    List.cons_append, List.nil_append, List.forall_mem_cons, List.not_mem_nil, false_implies,
    implies_true]
  constructor
  · rintro ⟨_, hbegin, _, hread, _, htime, _, hquery, v, hv, _, hcommit, hrows⟩
    exact ⟨⟨hbegin, hread, htime, hquery, hcommit, trivial⟩, v, hv, hrows⟩
  · rintro ⟨⟨hbegin, hread, htime, hquery, hcommit, -⟩, v, hv, hrows⟩
    exact ⟨(), hbegin, (), hread, (), htime, (), hquery, v, hv, (), hcommit, hrows⟩

/-- The run ends with a message of the server exactly if the server takes the script up to
the query and rejects the query. -/
theorem runReadOnly_rejected_iff {message : String} :
    (runReadOnly db timeoutMs query).outcome = .error (.rejected message) ↔
      (∀ s ∈ opening timeoutMs ++ [wrappedQuery query], db.Takes s) ∧
        db.result = .rejected message := by
  rw [runReadOnly_eq]
  simp only [andThen_error_iff, send_ok_iff, send_error_iff, readResult_rejected_iff,
    readResult_ok_iff, done_ne_error, opening, List.cons_append, List.nil_append,
    List.forall_mem_cons, List.not_mem_nil, false_implies, implies_true, reduceCtorEq,
    false_and, false_or, and_false, exists_false, or_false]
  constructor
  · rintro ⟨_, hbegin, _, hread, _, htime, _, hquery, hr⟩
    exact ⟨⟨hbegin, hread, htime, hquery, trivial⟩, hr⟩
  · rintro ⟨⟨hbegin, hread, htime, hquery, -⟩, hr⟩
    exact ⟨(), hbegin, (), hread, (), htime, (), hquery, hr⟩

end RevenueDesk.Database

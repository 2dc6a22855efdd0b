/-
# Queries that come without parameters

Without any parameters a query is sent as it is: it is not cut into tokens, and no name is
looked up.  With parameters that have none of its names it would be refused for the first name
it refers to, so the two agree on the queries that refer to no name, and on no others
(`bind_nil`).
-/
import RevenueDesk.Proofs.Sql.Binding

namespace RevenueDesk.Sql

/-- A query that is cut into its tokens, also if there are no parameters. -/
def scanned (parameters : List (String × Json)) (sql : String) :
    Except MissingParameter Prepared :=
  match (references (tokens sql.toList)).find? (isMissing parameters) with
  | some name => .error ⟨name⟩
  | none => .ok (place parameters (tokens sql.toList))

/-- What becomes of a query without parameters, against what cutting it into its tokens `ts`
would give. -/
structure Shortcut (sql : String) (ts : List Token) : Prop where
  /-- Any parameters but none lead to the tokens. -/
  general : ∀ parameters, parameters ≠ [] → bind parameters sql = scanned parameters sql
  /-- The query is sent as it is. -/
  untouched : bind [] sql = .ok ⟨sql, []⟩
  /-- It would be refused for the first name. -/
  refused : ∀ name names, references ts = name :: names → scanned [] sql = .error ⟨name⟩
  /-- It would be sent as it is exactly if there is no name. -/
  agrees_iff : scanned [] sql = bind [] sql ↔ references ts = []
  /-- Parameters that have none of the names are no parameters, to the tokens. -/
  absent : ∀ others, others ≠ [] → (∀ name ∈ references ts, Keyed.find? name others = none) →
    bind others sql = scanned [] sql
  /-- If there is no name, it does not matter which parameters there are. -/
  unreferenced : references ts = [] → ∀ others, bind others sql = bind [] sql

section Scanned

variable {parameters : List (String × Json)} {sql : String}

lemma bind_nil_eq (sql : String) : bind [] sql = .ok ⟨sql, []⟩ := rfl

lemma bind_eq_scanned (hp : parameters ≠ []) : bind parameters sql = scanned parameters sql :=
  bind_eq hp sql

/-- If all names are missing, the first one is what the query is refused for. -/
lemma scanned_of_missing {name : String} {names : List String}
    (hnames : references (tokens sql.toList) = name :: names)
    (h : Keyed.find? name parameters = none) : scanned parameters sql = .error ⟨name⟩ := by
  rw [scanned, hnames, List.find?_cons_of_pos (isMissing_iff.mpr h)]

/-- A query that refers to no name is sent as it is. -/
lemma scanned_of_unreferenced (h : references (tokens sql.toList) = []) :
    scanned parameters sql = .ok ⟨sql, []⟩ := by
  have hpositions : positions parameters (tokens sql.toList) = [] := by
    rw [positions, h]
    rfl
  have hkept : ∀ t ∈ tokens sql.toList, placeToken parameters [] t = t.text := by
    intro t ht
    have hname : t.name? = none := List.filterMap_eq_nil_iff.mp h t ht
    simp only [placeToken, hname]
  have htext : (tokens sql.toList).flatMap (placeToken parameters []) = sql.toList := by
    rw [List.flatMap_congr hkept, flatMap_text_tokens]
  rw [scanned, h, List.find?_nil]
  simp only [place, hpositions, htext, String.ofList_toList, List.filterMap_nil]

end Scanned

/-- A query without parameters, whatever its text is. -/
theorem bind_nil (sql : String) :
    ∃ ts, (∀ ts', Scan sql.toList ts' ↔ ts' = ts) ∧ Shortcut sql ts := by
  refine ⟨tokens sql.toList, fun _ => scan_iff, ?_⟩
  have hrefused : ∀ name names, references (tokens sql.toList) = name :: names →
      scanned [] sql = .error ⟨name⟩ := fun name names h => scanned_of_missing h rfl
  exact {
    general := fun _ hp => bind_eq_scanned hp
    untouched := bind_nil_eq sql
    refused := hrefused
    agrees_iff := by
      rw [bind_nil_eq]
      constructor
      · intro hagree
        cases hnames : references (tokens sql.toList) with
        | nil => rfl
        | cons name names => simp [hrefused name names hnames] at hagree
      · exact scanned_of_unreferenced
    absent := by
      intro others ho hnone
      rw [bind_eq_scanned ho]
      cases hnames : references (tokens sql.toList) with
      | nil => rw [scanned_of_unreferenced hnames, scanned_of_unreferenced hnames]
      | cons name names =>
        have hname := hnone name (hnames ▸ List.mem_cons_self)
        rw [scanned_of_missing hnames hname, hrefused name names hnames]
    unreferenced := by
      intro hnames others
      by_cases ho : others = []
      · rw [ho]
      · rw [bind_eq_scanned ho, scanned_of_unreferenced hnames, bind_nil_eq] }

/-- The query is sent with its reference, although the name has no value. -/
theorem not_bind_nil_eq_scanned : ¬ ∀ sql, bind [] sql = scanned [] sql := by
  intro hall
  have hsome := congrArg (·.toOption.isSome) (hall "SELECT :a")
  have hnone : (scanned [] "SELECT :a").toOption.isSome = false := by decide +kernel
  rw [hnone] at hsome
  exact absurd hsome (by decide)

end RevenueDesk.Sql

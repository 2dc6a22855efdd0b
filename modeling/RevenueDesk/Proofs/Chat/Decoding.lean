/-
# What an envelope says, however it is written

The members of an envelope are declared with a type (`Kind.declared`).  An object is an envelope
of a kind if the kind stands in it once, and its members are there as they are declared
(`WellFormed`); it then says what these members say (`Says`), and nothing else in it matters.

* `ofMembers?_eq_some_iff`: an envelope is read off an object exactly if the object says it;
* `isSome_ofMembers?_iff`: something is read exactly if the object is well-formed.
-/
import RevenueDesk.Chat.Envelope
import RevenueDesk.Proofs.Json.Denoting
import RevenueDesk.Proofs.Ledger.Collecting

namespace RevenueDesk.Chat

/-! ## Declared members -/

/-- The types that members are declared with. -/
inductive MemberType where
  /-- Any value. -/
  | value
  /-- A text. -/
  | text
  /-- A text, which may be null or missing. -/
  | optionalText
  /-- A list of texts. -/
  | texts
  /-- A list of lists of values, which may be missing. -/
  | rows
deriving DecidableEq, Repr

namespace MemberType

/-- The values of a type. -/
inductive Admits : MemberType → Json → Prop where
  | value {v : Json} (readable : v.Readable) : Admits .value v
  | text (s : String) : Admits .text (.string s)
  | null : Admits .optionalText .null
  | optionalText (s : String) : Admits .optionalText (.string s)
  | texts (ss : List String) : Admits .texts (.array (ss.map .string))
  | rows (xss : List (List Json)) (readable : ∀ xs ∈ xss, ∀ x ∈ xs, x.Readable) :
      Admits .rows (.array (xss.map .array))

/-- What is assumed if a member of the type is missing, unless it is required. -/
def assumed? : MemberType → Option Json
  | .value => none
  | .text => none
  | .optionalText => some .null
  | .texts => none
  | .rows => some (.array [])

end MemberType

namespace Kind

/-- The name of a kind. -/
def name : Kind → String
  | scalar => "scalar"
  | table => "table"
  | empty => "empty"
  | error => "error"

/-- The members that belong to a kind, in their order, with their types. -/
def declared : Kind → List (String × MemberType)
  | scalar => [("value", .value), ("label", .optionalText), ("sql", .optionalText)]
  | table => [("columns", .texts), ("rows", .rows), ("sql", .optionalText)]
  | empty => [("message", .optionalText), ("sql", .optionalText)]
  | error => [("error", .text), ("sql", .optionalText)]

lemma map_fst_declared (kind : Kind) : kind.declared.map Prod.fst = kind.fields := by
  cases kind <;> rfl

lemma nodup_fields (kind : Kind) : kind.fields.Nodup := by
  cases kind <;> decide

lemma kindField_not_mem_fields (kind : Kind) : Envelope.kindField ∉ kind.fields := by
  cases kind <;> decide

lemma ofName?_eq_some_iff {s : String} {kind : Kind} : ofName? s = some kind ↔ s = kind.name := by
  constructor
  · intro h
    unfold ofName? at h
    split_ifs at h with hs hs hs hs
    all_goals
      obtain rfl := Option.some.inj h
      exact hs
  · rintro rfl
    cases kind <;> decide

end Kind

/-- The kind of an envelope. -/
def Envelope.kind : Envelope → Kind
  | .scalar _ _ _ => .scalar
  | .table _ _ _ => .table
  | .empty _ _ => .empty
  | .error _ _ => .error

/-! ## Objects -/

/-- The names of members, with repeats. -/
def namesOf (members : List (String × Json)) : List String := members.map Prod.fst

/-- The members name the kind, once, and no member that belongs to it is repeated. -/
structure Tagged (kind : Kind) (members : List (String × Json)) : Prop where
  kind_mem : (Envelope.kindField, .string kind.name) ∈ members
  kind_once : (namesOf members).count Envelope.kindField = 1
  once : ∀ field ∈ kind.fields, (namesOf members).count field ≤ 1

/-- The members are those of an envelope of the kind, as they are declared. -/
structure WellFormed (kind : Kind) (members : List (String × Json)) : Prop
    extends Tagged kind members where
  present : ∀ field ∈ kind.declared, field.2.assumed? = none → field.1 ∈ namesOf members
  typed : ∀ field ∈ kind.declared, ∀ v, (field.1, v) ∈ members → field.2.Admits v

/-- What members say under the name of an optional text. -/
def SaysText (members : List (String × Json)) (name : String) : Option String → Prop
  | none => name ∉ namesOf members ∨ (name, .null) ∈ members
  | some s => (name, .string s) ∈ members

/-- What members say about rows: the values that are denoted, cell by cell. -/
def SaysRows (members : List (String × Json)) (rows : List (List Json)) : Prop :=
  "rows" ∉ namesOf members ∧ rows = [] ∨
    ∃ xss : List (List Json), ("rows", .array (xss.map .array)) ∈ members ∧
      xss.map (List.map Json.denoted?) = rows.map (List.map some)

/-- The members say what is in the envelope. -/
def Says (members : List (String × Json)) : Envelope → Prop
  | .scalar value label sql =>
    (∃ v, ("value", v) ∈ members ∧ Json.denoted? v = some value) ∧
      SaysText members "label" label ∧ SaysText members "sql" sql
  | .table columns rows sql =>
    ("columns", Json.ofStrings columns) ∈ members ∧ SaysRows members rows ∧
      SaysText members "sql" sql
  | .empty message sql => SaysText members "message" message ∧ SaysText members "sql" sql
  | .error error sql => ("error", .string error) ∈ members ∧ SaysText members "sql" sql

/-! ## Reading members -/

section Members

variable {kind : Kind} {members : List (String × Json)} {name : String} {v : Json}

/-- The members of a name. -/
def under (name : String) (members : List (String × Json)) : List (String × Json) :=
  members.filter (·.1 == name)

lemma mem_under_iff : (name, v) ∈ under name members ↔ (name, v) ∈ members := by
  simp [under]

lemma length_under : (under name members).length = (namesOf members).count name := by
  rw [List.count, namesOf, List.countP_map, List.countP_eq_length_filter]
  rfl

lemma one?_eq_some_iff : Envelope.one? name members = some v ↔
    (name, v) ∈ members ∧ (namesOf members).count name = 1 := by
  have hunder : members.filter (·.1 == name) = under name members := rfl
  rw [← length_under, ← mem_under_iff, Envelope.one?, hunder]
  constructor
  · intro h
    split at h
    · rename_i m hone
      have hname : m.1 = name := by
        have hm : m ∈ under name members := hone ▸ List.mem_singleton_self m
        simpa using (List.mem_filter.mp hm).2
      obtain rfl := Option.some.inj h
      rw [hone, ← hname]
      simp
    · simp at h
  · rintro ⟨hv, hlength⟩
    obtain ⟨m, hone⟩ := List.length_eq_one_iff.mp hlength
    rw [hone] at hv ⊢
    rw [← List.mem_singleton.mp hv]

/-- The members that belong to a kind. -/
def belonging (kind : Kind) (members : List (String × Json)) : List (String × Json) :=
  members.filter fun m => kind.fields.contains m.1

lemma nodup_belonging_iff : ((belonging kind members).map Prod.fst).Nodup ↔
    ∀ field ∈ kind.fields, (namesOf members).count field ≤ 1 := by
  have hnames : (belonging kind members).map Prod.fst =
      (namesOf members).filter fun name => kind.fields.contains name := by
    rw [namesOf, List.filter_map]
    rfl
  rw [hnames, List.nodup_iff_count_le_one]
  constructor
  · intro h field hfield
    have hle := h field
    rwa [List.count_filter (by simpa using hfield)] at hle
  · intro h name
    by_cases hname : name ∈ kind.fields
    · rw [List.count_filter (by simpa using hname)]
      exact h name hname
    · rw [List.count_eq_zero_of_not_mem (by simp [hname])]
      exact Nat.zero_le 1

/-- An envelope is read off the members that belong to the kind that is named. -/
lemma ofMembers?_eq_some_iff_tagged {e : Envelope} :
    Envelope.ofMembers? members = some e ↔
      ∃ kind, Tagged kind members ∧ kind.envelope? (belonging kind members) = some e := by
  have hbelonging : ∀ kind : Kind,
      (members.filter fun m => kind.fields.contains m.1) = belonging kind members := fun _ => rfl
  simp only [Envelope.ofMembers?, Option.bind_eq_bind, Option.bind_eq_some_iff,
    Kind.ofName?_eq_some_iff, one?_eq_some_iff, hbelonging, Option.ite_none_right_eq_some,
    nodup_belonging_iff]
  constructor
  · rintro ⟨name, ⟨v, ⟨hmem, hone⟩, htext⟩, kind, rfl, honce, henvelope⟩
    cases v with
    | string s =>
      obtain rfl : s = kind.name := by simpa [Json.text?] using htext
      exact ⟨kind, ⟨hmem, hone, honce⟩, henvelope⟩
    | _ => simp [Json.text?] at htext
  · rintro ⟨kind, ⟨hmem, hone, honce⟩, henvelope⟩
    exact ⟨kind.name, ⟨.string kind.name, ⟨hmem, hone⟩, rfl⟩, kind, rfl, honce, henvelope⟩

/-- The members of a tagged object are found by their names. -/
lemma Tagged.find?_eq_some_iff (h : Tagged kind members) (hname : name ∈ kind.fields) :
    Keyed.find? name (belonging kind members) = some v ↔ (name, v) ∈ members := by
  rw [← Keyed.mem_iff_find?_eq_some (nodup_belonging_iff.mpr h.once), belonging, List.mem_filter]
  simp [hname]

lemma Tagged.find?_eq_none_iff (h : Tagged kind members) (hname : name ∈ kind.fields) :
    Keyed.find? name (belonging kind members) = none ↔ name ∉ namesOf members := by
  simp only [Option.eq_none_iff_forall_ne_some, Ne, h.find?_eq_some_iff hname, namesOf,
    List.mem_map, Prod.exists, exists_and_right, exists_eq_right, not_exists]

/-! ## Reading values -/

lemma mapM_eq_some_iff {α β : Type} {f : α → Option β} {xs : List α} {ys : List β} :
    xs.mapM f = some ys ↔ xs.map f = ys.map some := by
  induction xs generalizing ys with
  | nil => cases ys <;> simp
  | cons x xs ih =>
    cases ys with
    | nil => simp [List.mapM_cons, Option.bind_eq_some_iff]
    | cons y ys => simp [List.mapM_cons, ← ih, Option.bind_eq_some_iff]

lemma readAll?_eq_some_iff {α : Type} {f : Json → Option α} {ys : List α} :
    readAll? f v = some ys ↔ ∃ xs, v = .array xs ∧ xs.map f = ys.map some := by
  cases v <;> simp [readAll?, Json.items?, mapM_eq_some_iff]

lemma text?_eq_some_iff {s : String} : v.text? = some s ↔ v = .string s := by
  cases v <;> simp [Json.text?]

/-- A list of texts is read as it is. -/
lemma readTexts_iff {ss : List String} :
    readAll? Json.text? v = some ss ↔ v = Json.ofStrings ss := by
  have hitems : ∀ xs : List Json, xs.map Json.text? = ss.map some ↔ xs = ss.map .string := by
    intro xs
    induction xs generalizing ss with
    | nil => cases ss <;> simp
    | cons x xs ih =>
      cases ss with
      | nil => simp
      | cons s ss => simp [text?_eq_some_iff, ih]
  simp only [readAll?_eq_some_iff, hitems, exists_eq_right]
  rfl

/-- Rows are read cell by cell. -/
lemma readRows_iff {rows : List (List Json)} :
    readAll? (readAll? Json.denoted?) v = some rows ↔
      ∃ xss : List (List Json), v = .array (xss.map .array) ∧
        xss.map (List.map Json.denoted?) = rows.map (List.map some) := by
  have hitems : ∀ xs : List Json, xs.map (readAll? Json.denoted?) = rows.map some ↔
      ∃ xss : List (List Json), xs = xss.map .array ∧
        xss.map (List.map Json.denoted?) = rows.map (List.map some) := by
    intro xs
    induction xs generalizing rows with
    | nil => cases rows <;> simp
    | cons x xs ih =>
      cases rows with
      | nil => simp
      | cons row rows =>
        rw [List.map_cons, List.map_cons, List.cons.injEq, ih, readAll?_eq_some_iff]
        constructor
        · rintro ⟨⟨cells, rfl, hcells⟩, xss, rfl, hxss⟩
          exact ⟨cells :: xss, rfl, by rw [List.map_cons, List.map_cons, hcells, hxss]⟩
        · rintro ⟨_ | ⟨cells, xss⟩, hxs, hxss⟩
          · simp at hxs
          · obtain ⟨rfl, rfl⟩ := List.cons.inj hxs
            obtain ⟨hcells, hxss⟩ := List.cons.inj hxss
            exact ⟨⟨cells, rfl, hcells⟩, xss, rfl, hxss⟩
  rw [readAll?_eq_some_iff]
  simp only [hitems]
  constructor
  · rintro ⟨xs, rfl, xss, rfl, hxss⟩
    exact ⟨xss, rfl, hxss⟩
  · rintro ⟨xss, rfl, hxss⟩
    exact ⟨_, rfl, xss, rfl, hxss⟩

/-! ## Reading an envelope -/

/-- What a member is read from: what stands under its name, or what is assumed without it. -/
def sourceOf? (fields : List (String × Json)) (field : String × MemberType) : Option Json :=
  (Keyed.find? field.1 fields).or field.2.assumed?

/-- The parts of the envelope are read from the members that are declared for them. -/
def Reads (fields : List (String × Json)) : Envelope → Prop
  | .scalar value label sql =>
    (∃ v, sourceOf? fields ("value", .value) = some v ∧ Json.denoted? v = some value) ∧
      sourceOf? fields ("label", .optionalText) = some (Json.ofOption .string label) ∧
      sourceOf? fields ("sql", .optionalText) = some (Json.ofOption .string sql)
  | .table columns rows sql =>
    sourceOf? fields ("columns", .texts) = some (Json.ofStrings columns) ∧
      (∃ v, sourceOf? fields ("rows", .rows) = some v ∧
        readAll? (readAll? Json.denoted?) v = some rows) ∧
      sourceOf? fields ("sql", .optionalText) = some (Json.ofOption .string sql)
  | .empty message sql =>
    sourceOf? fields ("message", .optionalText) = some (Json.ofOption .string message) ∧
      sourceOf? fields ("sql", .optionalText) = some (Json.ofOption .string sql)
  | .error error sql =>
    sourceOf? fields ("error", .text) = some (.string error) ∧
      sourceOf? fields ("sql", .optionalText) = some (Json.ofOption .string sql)

lemma optionalText?_eq_some_iff {t : Option String} :
    optionalText? name members = some t ↔
      sourceOf? members (name, .optionalText) = some (Json.ofOption .string t) := by
  unfold optionalText? sourceOf?
  rcases Keyed.find? name members with _ | v
  · cases t <;> simp [Json.ofOption, MemberType.assumed?]
  · cases v <;> cases t <;> simp [Json.ofOption, Json.text?]

/-- Nothing is assumed for a required member. -/
lemma sourceOf?_required {type : MemberType} (h : type.assumed? = none) :
    sourceOf? members (name, type) = Keyed.find? name members := by
  rw [sourceOf?, h, Option.or_none]

/-- Missing rows are read like an empty list. -/
lemma envelope?_table :
    Kind.table.envelope? members =
      (optionalText? "sql" members).bind fun sql =>
        ((Keyed.find? "columns" members).bind (readAll? Json.text?)).bind fun columns =>
          ((sourceOf? members ("rows", .rows)).bind (readAll? (readAll? Json.denoted?))).bind
            fun rows => some (.table columns rows sql) := by
  unfold Kind.envelope? sourceOf?
  cases Keyed.find? "rows" members <;> rfl

/-- The members of a kind are read as the parts of an envelope of the kind. -/
lemma envelope?_eq_some_iff {e : Envelope} :
    kind.envelope? members = some e ↔ e.kind = kind ∧ Reads members e := by
  cases kind with
  | scalar =>
    simp only [Kind.envelope?, Option.bind_eq_bind, Option.bind_eq_some_iff,
      optionalText?_eq_some_iff, Option.some.injEq]
    constructor
    · rintro ⟨sql, hsql, value, ⟨v, hv, hvalue⟩, label, hlabel, rfl⟩
      exact ⟨rfl, ⟨v, (sourceOf?_required rfl).trans hv, hvalue⟩, hlabel, hsql⟩
    · rintro ⟨hkind, hreads⟩
      cases e with
      | scalar value label sql =>
        obtain ⟨⟨v, hv, hvalue⟩, hlabel, hsql⟩ := hreads
        exact ⟨sql, hsql, value, ⟨v, (sourceOf?_required rfl).symm.trans hv, hvalue⟩,
          label, hlabel, rfl⟩
      | _ => simp [Envelope.kind] at hkind
  | table =>
    simp only [envelope?_table, Option.bind_eq_some_iff, optionalText?_eq_some_iff,
      readTexts_iff, exists_eq_right, Option.some.injEq]
    constructor
    · rintro ⟨sql, hsql, columns, hcolumns, rows, hrows, rfl⟩
      exact ⟨rfl, (sourceOf?_required rfl).trans hcolumns, hrows, hsql⟩
    · rintro ⟨hkind, hreads⟩
      cases e with
      | table columns rows sql =>
        obtain ⟨hcolumns, hrows, hsql⟩ := hreads
        exact ⟨sql, hsql, columns, (sourceOf?_required rfl).symm.trans hcolumns, rows, hrows, rfl⟩
      | _ => simp [Envelope.kind] at hkind
  | empty =>
    simp only [Kind.envelope?, Option.bind_eq_bind, Option.bind_eq_some_iff,
      optionalText?_eq_some_iff, Option.some.injEq]
    constructor
    · rintro ⟨sql, hsql, message, hmessage, rfl⟩
      exact ⟨rfl, hmessage, hsql⟩
    · rintro ⟨hkind, hreads⟩
      cases e with
      | empty message sql => exact ⟨sql, hreads.2, message, hreads.1, rfl⟩
      | _ => simp [Envelope.kind] at hkind
  | error =>
    simp only [Kind.envelope?, Option.bind_eq_bind, Option.bind_eq_some_iff,
      optionalText?_eq_some_iff, text?_eq_some_iff, exists_eq_right, Option.some.injEq]
    constructor
    · rintro ⟨sql, hsql, error, herror, rfl⟩
      exact ⟨rfl, (sourceOf?_required rfl).trans herror, hsql⟩
    · rintro ⟨hkind, hreads⟩
      cases e with
      | error error sql =>
        exact ⟨sql, hreads.2, error, (sourceOf?_required rfl).symm.trans hreads.1, rfl⟩
      | _ => simp [Envelope.kind] at hkind

/-! ## What is read is what is said -/

/-- A member of a tagged object is read from the value beside its name, or it is missing. -/
lemma Tagged.sourceOf?_eq_some_iff {field : String × MemberType} (h : Tagged kind members)
    (hfield : field.1 ∈ kind.fields) :
    sourceOf? (belonging kind members) field = some v ↔
      (field.1, v) ∈ members ∨ field.1 ∉ namesOf members ∧ field.2.assumed? = some v := by
  rw [sourceOf?, Option.or_eq_some_iff, h.find?_eq_some_iff hfield, h.find?_eq_none_iff hfield]

lemma Tagged.sourceOf?_optionalText_iff {t : Option String} (h : Tagged kind members)
    (hname : name ∈ kind.fields) :
    sourceOf? (belonging kind members) (name, .optionalText) = some (Json.ofOption .string t) ↔
      SaysText members name t := by
  rw [h.sourceOf?_eq_some_iff hname]
  cases t with
  | none => simp [SaysText, Json.ofOption, MemberType.assumed?, or_comm]
  | some s => simp [SaysText, Json.ofOption, MemberType.assumed?]

lemma Tagged.sourceOf?_required_iff {type : MemberType} (h : Tagged kind members)
    (hname : name ∈ kind.fields) (hrequired : type.assumed? = none) :
    sourceOf? (belonging kind members) (name, type) = some v ↔ (name, v) ∈ members := by
  rw [sourceOf?_required hrequired, h.find?_eq_some_iff hname]

lemma Tagged.sourceOf?_rows_iff {rows : List (List Json)} (h : Tagged .table members) :
    (∃ v, sourceOf? (belonging .table members) ("rows", .rows) = some v ∧
      readAll? (readAll? Json.denoted?) v = some rows) ↔ SaysRows members rows := by
  have hsource : ∀ v, sourceOf? (belonging .table members) ("rows", .rows) = some v ↔
      ("rows", v) ∈ members ∨ "rows" ∉ namesOf members ∧ v = .array [] := by
    intro v
    rw [h.sourceOf?_eq_some_iff (by decide)]
    simp [MemberType.assumed?, eq_comm]
  have hnone : readAll? (readAll? Json.denoted?) (.array []) = some rows ↔ rows = [] := by
    simp [readAll?, Json.items?, eq_comm]
  simp only [hsource, SaysRows]
  constructor
  · rintro ⟨v, hmem | ⟨habsent, rfl⟩, hread⟩
    · obtain ⟨xss, rfl, hxss⟩ := readRows_iff.mp hread
      exact Or.inr ⟨xss, hmem, hxss⟩
    · exact Or.inl ⟨habsent, hnone.mp hread⟩
  · rintro (⟨habsent, rfl⟩ | ⟨xss, hmem, hxss⟩)
    · exact ⟨.array [], Or.inr ⟨habsent, rfl⟩, hnone.mpr rfl⟩
    · exact ⟨.array (xss.map .array), Or.inl hmem, readRows_iff.mpr ⟨xss, rfl, hxss⟩⟩

lemma Tagged.reads_iff_says {e : Envelope} (h : Tagged e.kind members) :
    Reads (belonging e.kind members) e ↔ Says members e := by
  cases e with
  | scalar value label sql =>
    replace h : Tagged .scalar members := h
    refine and_congr (exists_congr fun v => and_congr_left' ?_) (and_congr ?_ ?_)
    · exact h.sourceOf?_required_iff (by decide) rfl
    · exact h.sourceOf?_optionalText_iff (by decide)
    · exact h.sourceOf?_optionalText_iff (by decide)
  | table columns rows sql =>
    replace h : Tagged .table members := h
    refine and_congr ?_ (and_congr h.sourceOf?_rows_iff ?_)
    · exact h.sourceOf?_required_iff (by decide) rfl
    · exact h.sourceOf?_optionalText_iff (by decide)
  | empty message sql =>
    replace h : Tagged .empty members := h
    refine and_congr ?_ ?_
    · exact h.sourceOf?_optionalText_iff (by decide)
    · exact h.sourceOf?_optionalText_iff (by decide)
  | error error sql =>
    replace h : Tagged .error members := h
    refine and_congr ?_ ?_
    · exact h.sourceOf?_required_iff (by decide) rfl
    · exact h.sourceOf?_optionalText_iff (by decide)

/-- The envelope that an object is read as is the one that it says. -/
theorem ofMembers?_eq_some_iff {e : Envelope} :
    Envelope.ofMembers? members = some e ↔ Tagged e.kind members ∧ Says members e := by
  rw [ofMembers?_eq_some_iff_tagged]
  constructor
  · rintro ⟨kind, htagged, henvelope⟩
    obtain ⟨rfl, hreads⟩ := envelope?_eq_some_iff.mp henvelope
    exact ⟨htagged, htagged.reads_iff_says.mp hreads⟩
  · rintro ⟨htagged, hsays⟩
    exact ⟨e.kind, htagged, envelope?_eq_some_iff.mpr ⟨rfl, htagged.reads_iff_says.mpr hsays⟩⟩

/-! ## What can be read -/

lemma map_eq_map_filterMap {α β : Type} {f : α → Option β} {xs : List α}
    (h : ∀ x ∈ xs, (f x).isSome) : xs.map f = (xs.filterMap f).map some := by
  induction xs with
  | nil => rfl
  | cons x xs ih =>
    obtain ⟨y, hy⟩ := Option.isSome_iff_exists.mp (h x List.mem_cons_self)
    rw [List.map_cons, List.filterMap_cons_some hy, List.map_cons, hy,
      ih fun z hz => h z (List.mem_cons_of_mem x hz)]

lemma admits_value_iff :
    MemberType.value.Admits v ↔ ∃ value, Json.denoted? v = some value := by
  rw [← Option.isSome_iff_exists, Json.denoted?_isSome_iff]
  exact ⟨fun | .value readable => readable, .value⟩

lemma admits_text_iff : MemberType.text.Admits v ↔ ∃ s, v = .string s := by
  constructor
  · rintro ⟨⟩
    exact ⟨_, rfl⟩
  · rintro ⟨s, rfl⟩
    exact .text s

lemma admits_optionalText_iff :
    MemberType.optionalText.Admits v ↔ ∃ t, v = Json.ofOption .string t := by
  constructor
  · intro h
    cases h with
    | null => exact ⟨none, rfl⟩
    | optionalText s => exact ⟨some s, rfl⟩
  · rintro ⟨_ | s, rfl⟩
    · exact .null
    · exact .optionalText s

lemma admits_texts_iff : MemberType.texts.Admits v ↔ ∃ ss, v = Json.ofStrings ss := by
  constructor
  · rintro ⟨⟩
    exact ⟨_, rfl⟩
  · rintro ⟨ss, rfl⟩
    exact .texts ss

lemma admits_rows_iff : MemberType.rows.Admits v ↔
    ∃ rows, readAll? (readAll? Json.denoted?) v = some rows := by
  simp only [readRows_iff]
  constructor
  · intro h
    cases h with
    | rows xss readable =>
      refine ⟨xss.map (List.filterMap Json.denoted?), xss, rfl, ?_⟩
      rw [List.map_map]
      exact List.map_congr_left fun xs hxs => map_eq_map_filterMap fun x hx =>
        Json.denoted?_isSome_iff.mpr (readable xs hxs x hx)
  · rintro ⟨rows, xss, rfl, hrows⟩
    refine .rows xss fun xs hxs x hx => Json.denoted?_isSome_iff.mp ?_
    obtain ⟨row, -, hrow⟩ := List.mem_map.mp (hrows ▸ List.mem_map_of_mem hxs)
    obtain ⟨cell, -, hcell⟩ := List.mem_map.mp (hrow ▸ List.mem_map_of_mem hx)
    exact Option.isSome_iff_exists.mpr ⟨cell, hcell.symm⟩

/-- An envelope can be read if every member is there, or assumed, and of its type. -/
lemma exists_reads_iff : (∃ e : Envelope, e.kind = kind ∧ Reads members e) ↔
    ∀ field ∈ kind.declared, ∃ v, sourceOf? members field = some v ∧ field.2.Admits v := by
  constructor
  · rintro ⟨e, rfl, hreads⟩
    have htext : ∀ {name t}, sourceOf? members (name, .optionalText) =
        some (Json.ofOption .string t) → ∃ v, sourceOf? members (name, .optionalText) = some v ∧
          MemberType.optionalText.Admits v :=
      fun h => ⟨_, h, admits_optionalText_iff.mpr ⟨_, rfl⟩⟩
    cases e with
    | scalar value label sql =>
      obtain ⟨⟨v, hv, hvalue⟩, hlabel, hsql⟩ := hreads
      simpa [Envelope.kind, Kind.declared] using
        ⟨⟨v, hv, admits_value_iff.mpr ⟨value, hvalue⟩⟩, htext hlabel, htext hsql⟩
    | table columns rows sql =>
      obtain ⟨hcolumns, ⟨v, hv, hrows⟩, hsql⟩ := hreads
      simpa [Envelope.kind, Kind.declared] using
        ⟨⟨_, hcolumns, admits_texts_iff.mpr ⟨columns, rfl⟩⟩,
          ⟨v, hv, admits_rows_iff.mpr ⟨rows, hrows⟩⟩, htext hsql⟩
    | empty message sql =>
      simpa [Envelope.kind, Kind.declared] using ⟨htext hreads.1, htext hreads.2⟩
    | error error sql =>
      simpa [Envelope.kind, Kind.declared] using
        ⟨⟨_, hreads.1, admits_text_iff.mpr ⟨error, rfl⟩⟩, htext hreads.2⟩
  · intro h
    have htext : ∀ {name}, (name, .optionalText) ∈ kind.declared →
        ∃ t, sourceOf? members (name, .optionalText) = some (Json.ofOption .string t) := by
      intro name hname
      obtain ⟨v, hv, hadmits⟩ := h _ hname
      obtain ⟨t, rfl⟩ := admits_optionalText_iff.mp hadmits
      exact ⟨t, hv⟩
    cases kind with
    | scalar =>
      obtain ⟨v, hv, hadmits⟩ := h ("value", .value) (by decide)
      obtain ⟨value, hvalue⟩ := admits_value_iff.mp hadmits
      obtain ⟨label, hlabel⟩ := @htext "label" (by decide)
      obtain ⟨sql, hsql⟩ := @htext "sql" (by decide)
      exact ⟨.scalar value label sql, rfl, ⟨v, hv, hvalue⟩, hlabel, hsql⟩
    | table =>
      obtain ⟨_, hcolumns, hadmits⟩ := h ("columns", .texts) (by decide)
      obtain ⟨columns, rfl⟩ := admits_texts_iff.mp hadmits
      obtain ⟨v, hv, hadmits⟩ := h ("rows", .rows) (by decide)
      obtain ⟨rows, hrows⟩ := admits_rows_iff.mp hadmits
      obtain ⟨sql, hsql⟩ := @htext "sql" (by decide)
      exact ⟨.table columns rows sql, rfl, hcolumns, ⟨v, hv, hrows⟩, hsql⟩
    | empty =>
      obtain ⟨message, hmessage⟩ := @htext "message" (by decide)
      obtain ⟨sql, hsql⟩ := @htext "sql" (by decide)
      exact ⟨.empty message sql, rfl, hmessage, hsql⟩
    | error =>
      obtain ⟨_, herror, hadmits⟩ := h ("error", .text) (by decide)
      obtain ⟨error, rfl⟩ := admits_text_iff.mp hadmits
      obtain ⟨sql, hsql⟩ := @htext "sql" (by decide)
      exact ⟨.error error sql, rfl, herror, hsql⟩

lemma admits_of_assumed? {type : MemberType} (h : type.assumed? = some v) : type.Admits v := by
  cases type with
  | optionalText =>
    obtain rfl := Option.some.inj h
    exact .null
  | rows =>
    obtain rfl := Option.some.inj h
    exact .rows [] (by simp)
  | _ => simp [MemberType.assumed?] at h

/-- The members of a tagged object are as declared if they can be read. -/
lemma Tagged.wellFormed_iff (h : Tagged kind members) : WellFormed kind members ↔
    ∀ field ∈ kind.declared, ∃ v,
      sourceOf? (belonging kind members) field = some v ∧ field.2.Admits v := by
  have hname : ∀ field ∈ kind.declared, field.1 ∈ kind.fields := fun field hfield =>
    kind.map_fst_declared ▸ List.mem_map_of_mem hfield
  constructor
  · intro hwell field hfield
    by_cases hpresent : field.1 ∈ namesOf members
    · obtain ⟨⟨name, v⟩, hv, rfl⟩ := List.mem_map.mp hpresent
      exact ⟨v, (h.sourceOf?_eq_some_iff (hname field hfield)).mpr (Or.inl hv),
        hwell.typed field hfield v hv⟩
    · obtain ⟨v, hv⟩ := Option.ne_none_iff_exists'.mp fun hrequired =>
        hpresent (hwell.present field hfield hrequired)
      exact ⟨v, (h.sourceOf?_eq_some_iff (hname field hfield)).mpr (Or.inr ⟨hpresent, hv⟩),
        admits_of_assumed? hv⟩
  · intro hread
    refine ⟨h, fun field hfield hrequired => ?_, fun field hfield v hv => ?_⟩
    · obtain ⟨v, hv, -⟩ := hread field hfield
      rw [h.sourceOf?_required_iff (hname field hfield) hrequired] at hv
      exact List.mem_map_of_mem hv
    · obtain ⟨w, hw, hadmits⟩ := hread field hfield
      have hv' := (h.sourceOf?_eq_some_iff (hname field hfield)).mpr (Or.inl hv)
      rwa [Option.some.inj (hw.symm.trans hv')] at hadmits

/-- Something is read off an object exactly if its members are those of some kind. -/
theorem isSome_ofMembers?_iff :
    (Envelope.ofMembers? members).isSome ↔ ∃ kind, WellFormed kind members := by
  have hread : ∀ kind : Kind, (∃ e, kind.envelope? (belonging kind members) = some e) ↔
      ∀ field ∈ kind.declared, ∃ v,
        sourceOf? (belonging kind members) field = some v ∧ field.2.Admits v := by
    intro kind
    simp only [envelope?_eq_some_iff, exists_reads_iff]
  rw [Option.isSome_iff_exists]
  simp only [ofMembers?_eq_some_iff_tagged]
  constructor
  · rintro ⟨e, kind, htagged, he⟩
    exact ⟨kind, htagged.wellFormed_iff.mpr ((hread kind).mp ⟨e, he⟩)⟩
  · rintro ⟨kind, hwell⟩
    obtain ⟨e, he⟩ := (hread kind).mpr (hwell.toTagged.wellFormed_iff.mp hwell)
    exact ⟨e, kind, hwell.toTagged, he⟩

end Members

end RevenueDesk.Chat

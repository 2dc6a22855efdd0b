/-
# One envelope in many forms

The same envelope can be written as an object with its members in any order, with other members
among them, and as an array.  All of these are read alike (`ReadInAnyForm`).

What counts of an object are its members under the name of the kind and under those that belong
to the kind (`ofMembers?_eq_some_of_same`).  An array stands for an object (`objectOf`) whose
members are read from the values at their places.
-/
import RevenueDesk.Proofs.Chat.Decoding

namespace RevenueDesk.Chat

section Members

variable {kind : Kind} {members members' : List (String × Json)} {name : String} {v : Json}

/-! ## Order and other members -/

/-- What is read depends on the sources of the members alone. -/
lemma envelope?_congr (h : ∀ field ∈ kind.declared, sourceOf? members field =
    sourceOf? members' field) : kind.envelope? members = kind.envelope? members' := by
  ext e
  simp only [envelope?_eq_some_iff]
  refine and_congr_right ?_
  rintro rfl
  cases e <;> simp_all [Envelope.kind, Kind.declared, Reads]

lemma Tagged.congr (h : Tagged kind members)
    (hsame : ∀ name, name = Envelope.kindField ∨ name ∈ kind.fields →
      (under name members').Perm (under name members)) : Tagged kind members' := by
  have hcount : ∀ name, name = Envelope.kindField ∨ name ∈ kind.fields →
      (namesOf members').count name = (namesOf members).count name := by
    intro name hname
    rw [← length_under, ← length_under, (hsame name hname).length_eq]
  constructor
  · exact mem_under_iff.mp ((hsame _ (Or.inl rfl)).mem_iff.mpr (mem_under_iff.mpr h.kind_mem))
  · exact (hcount _ (Or.inl rfl)).trans h.kind_once
  · exact fun field hfield => (hcount field (Or.inr hfield)).trans_le (h.once field hfield)

/-- What is read off an object is read off every other one that has the same members under the
names that count for it. -/
lemma ofMembers?_eq_some_of_same {e : Envelope} (h : Envelope.ofMembers? members = some e)
    (hsame : ∀ name, name = Envelope.kindField ∨ name ∈ e.kind.fields →
      (under name members').Perm (under name members)) : Envelope.ofMembers? members' = some e := by
  obtain ⟨kind, htagged, henvelope⟩ := ofMembers?_eq_some_iff_tagged.mp h
  obtain rfl := (envelope?_eq_some_iff.mp henvelope).1
  have htagged' := htagged.congr hsame
  refine ofMembers?_eq_some_iff_tagged.mpr ⟨e.kind, htagged', ?_⟩
  rw [← henvelope]
  refine envelope?_congr fun field hfield => ?_
  have hname : field.1 ∈ e.kind.fields := e.kind.map_fst_declared ▸ List.mem_map_of_mem hfield
  have hmem : ∀ v, (field.1, v) ∈ members' ↔ (field.1, v) ∈ members := by
    intro v
    rw [← mem_under_iff, (hsame _ (Or.inr hname)).mem_iff, mem_under_iff]
  ext v
  rw [htagged'.sourceOf?_eq_some_iff hname, htagged.sourceOf?_eq_some_iff hname]
  simp only [namesOf, List.mem_map, Prod.exists, exists_and_right, exists_eq_right, hmem]

/-- The order of the members does not count. -/
theorem ofMembers?_eq_of_perm (h : members.Perm members') :
    Envelope.ofMembers? members = Envelope.ofMembers? members' := by
  ext e
  constructor
  · exact fun he => ofMembers?_eq_some_of_same he fun name _ => h.symm.filter _
  · exact fun he => ofMembers?_eq_some_of_same he fun name _ => h.filter _

/-- A member does not count that neither names the kind nor belongs to it. -/
theorem ofMembers?_insert {before after : List (String × Json)} {m : String × Json}
    (hkind : m.1 ≠ Envelope.kindField)
    (hfields : ∀ kind : Kind, (Envelope.kindField, .string kind.name) ∈ before ++ after →
      m.1 ∉ kind.fields) :
    Envelope.ofMembers? (before ++ m :: after) = Envelope.ofMembers? (before ++ after) := by
  have hunder : ∀ name, name ≠ m.1 →
      under name (before ++ m :: after) = under name (before ++ after) := by
    intro name hname
    simp [under, Ne.symm hname]
  have hnames : ∀ {kind : Kind}, m.1 ∉ kind.fields →
      ∀ name, name = Envelope.kindField ∨ name ∈ kind.fields → name ≠ m.1 := by
    rintro kind hm name (rfl | hname)
    · exact Ne.symm hkind
    · rintro rfl
      exact hm hname
  have htag : ∀ kind : Kind, (Envelope.kindField, .string kind.name) ∈ before ++ m :: after →
      (Envelope.kindField, .string kind.name) ∈ before ++ after := by
    intro kind hmem
    rw [← mem_under_iff, hunder _ (Ne.symm hkind)] at hmem
    exact mem_under_iff.mp hmem
  ext e
  constructor
  · intro he
    have hm := hfields e.kind (htag e.kind (ofMembers?_eq_some_iff.mp he).1.kind_mem)
    exact ofMembers?_eq_some_of_same he fun name hname =>
      .of_eq (hunder name (hnames hm name hname)).symm
  · intro he
    have hm := hfields e.kind (ofMembers?_eq_some_iff.mp he).1.kind_mem
    exact ofMembers?_eq_some_of_same he fun name hname =>
      .of_eq (hunder name (hnames hm name hname))

/-! ## Arrays -/

variable {values : List Json}

lemma map_fst_zip_sublist {α β : Type} (xs : List α) (ys : List β) :
    ((xs.zip ys).map Prod.fst).Sublist xs := by
  induction xs generalizing ys with
  | nil => simp
  | cons x xs ih =>
    cases ys with
    | nil => simp
    | cons y ys => exact (ih ys).cons_cons x

/-- The members that values in the order of the declaration stand for. -/
def membersOf (kind : Kind) (values : List Json) : List (String × Json) :=
  kind.fields.zip values

/-- The object that an array with these values stands for. -/
def objectOf (kind : Kind) (values : List Json) : List (String × Json) :=
  (Envelope.kindField, .string kind.name) :: membersOf kind values

lemma map_fst_membersOf : ((membersOf kind values).map Prod.fst).Sublist kind.fields :=
  map_fst_zip_sublist kind.fields values

/-- All members but the kind belong to it. -/
lemma belonging_objectOf : belonging kind (objectOf kind values) = membersOf kind values := by
  have hall : ∀ m ∈ membersOf kind values, kind.fields.contains m.1 := fun m hm => by
    simpa using map_fst_membersOf.subset (List.mem_map_of_mem hm)
  have htag : kind.fields.contains Envelope.kindField = false := by
    simpa using kind.kindField_not_mem_fields
  rw [belonging, objectOf, List.filter_cons_of_neg (by rw [htag]; simp), List.filter_eq_self]
  exact hall

lemma tagged_objectOf : Tagged kind (objectOf kind values) where
  kind_mem := List.mem_cons_self
  kind_once := by
    have habsent : Envelope.kindField ∉ namesOf (membersOf kind values) := fun h =>
      kind.kindField_not_mem_fields (map_fst_membersOf.subset h)
    rw [objectOf, namesOf, List.map_cons, List.count_cons_self]
    exact congrArg (· + 1) (List.count_eq_zero_of_not_mem habsent)
  once := by
    rw [← nodup_belonging_iff, belonging_objectOf]
    exact kind.nodup_fields.sublist map_fst_membersOf

/-- No other kind is named. -/
lemma Tagged.kind_eq {kind' : Kind} (h : Tagged kind members) (h' : Tagged kind' members) :
    kind' = kind := by
  have hone := one?_eq_some_iff.mpr ⟨h.kind_mem, h.kind_once⟩
  have hone' := one?_eq_some_iff.mpr ⟨h'.kind_mem, h'.kind_once⟩
  have hname : kind.name = kind'.name := by simpa using hone.symm.trans hone'
  exact Option.some.inj ((Kind.ofName?_eq_some_iff.mpr hname).symm.trans
    (Kind.ofName?_eq_some_iff.mpr rfl))

lemma Tagged.ofMembers?_eq (h : Tagged kind members) :
    Envelope.ofMembers? members = kind.envelope? (belonging kind members) := by
  ext e
  rw [ofMembers?_eq_some_iff_tagged]
  constructor
  · rintro ⟨kind', h', he⟩
    rwa [h.kind_eq h'] at he
  · exact fun he => ⟨kind, h, he⟩

/-- A member is read from the value at its place. -/
lemma sourceOf?_membersOf {i : Nat} {field : String × MemberType}
    (hfield : kind.declared[i]? = some field) :
    sourceOf? (membersOf kind values) field = values[i]?.or field.2.assumed? := by
  have hname : kind.fields[i]? = some field.1 := by
    rw [← kind.map_fst_declared, List.getElem?_map, hfield, Option.map_some]
  rw [sourceOf?, membersOf, Keyed.find?_zip kind.nodup_fields hname]

/-- Values that would be assumed may be left off at the end. -/
lemma envelope?_membersOf {front back : List Json}
    (hback : ∀ p ∈ (kind.declared.drop front.length).zip back, p.1.2.assumed? = some p.2) :
    kind.envelope? (membersOf kind front) = kind.envelope? (membersOf kind (front ++ back)) := by
  refine envelope?_congr fun field hfield => ?_
  obtain ⟨i, hi⟩ := List.mem_iff_getElem?.mp hfield
  rw [sourceOf?_membersOf hi, sourceOf?_membersOf hi]
  by_cases hfront : i < front.length
  · rw [List.getElem?_append_left hfront]
  · rw [List.getElem?_append_right (by omega), List.getElem?_eq_none (by omega)]
    rcases hv : back[i - front.length]? with _ | v
    · rfl
    · rw [Option.none_or, Option.some_or]
      refine hback (field, v) (List.mem_iff_getElem?.mpr ⟨i - front.length, ?_⟩)
      have hplace : front.length + (i - front.length) = i := by omega
      rw [List.getElem?_zip_eq_some, List.getElem?_drop, hplace]
      exact ⟨hi, hv⟩

/-- An array is read like the object with the same values. -/
theorem ofItems?_eq {front back : List Json}
    (hlength : front.length ≤ kind.fields.length)
    (hback : ∀ p ∈ (kind.declared.drop front.length).zip back, p.1.2.assumed? = some p.2) :
    Envelope.ofItems? (.string kind.name :: front) =
      Envelope.ofMembers? (objectOf kind (front ++ back)) := by
  rw [tagged_objectOf.ofMembers?_eq, belonging_objectOf, ← envelope?_membersOf hback]
  simp only [Envelope.ofItems?, Option.bind_eq_bind, Kind.ofName?_eq_some_iff.mpr rfl,
    Option.bind_some, if_pos hlength]
  rfl

/-- No other array is an envelope. -/
theorem exists_of_ofItems?_eq_some {items : List Json} {e : Envelope}
    (h : Envelope.ofItems? items = some e) :
    ∃ values, items = .string e.kind.name :: values ∧ values.length ≤ e.kind.fields.length := by
  unfold Envelope.ofItems? at h
  split at h
  · rename_i name values
    simp only [Option.bind_eq_bind, Option.bind_eq_some_iff, Kind.ofName?_eq_some_iff,
      Option.ite_none_right_eq_some, envelope?_eq_some_iff] at h
    obtain ⟨kind, rfl, hlength, rfl, -⟩ := h
    exact ⟨values, rfl, hlength⟩
  · simp at h

end Members

/-! ## Any form -/

/-- Envelopes are read exactly, whatever form they come in:

* what is read off an object is what its members say, and nothing is read only if they are not
  those of an envelope;
* the members come in any order, and others among them do not count, not even if they belong to
  another kind;
* in an array the values stand in the order of the declaration, after the kind, and those at the
  end may be left off if they would be assumed. -/
structure ReadInAnyForm : Prop where
  exact : ∀ (members : List (String × Json)) (e : Envelope),
    Envelope.ofWritten? (.object members) = some e ↔ Tagged e.kind members ∧ Says members e
  accepted : ∀ members : List (String × Json),
    (Envelope.ofWritten? (.object members)).isSome ↔ ∃ kind, WellFormed kind members
  order : ∀ members members' : List (String × Json), members.Perm members' →
    Envelope.ofWritten? (.object members) = Envelope.ofWritten? (.object members')
  others : ∀ (before after : List (String × Json)) (m : String × Json),
    m.1 ≠ Envelope.kindField →
    (∀ kind : Kind, (Envelope.kindField, .string kind.name) ∈ before ++ after →
      m.1 ∉ kind.fields) →
    Envelope.ofWritten? (.object (before ++ m :: after)) =
      Envelope.ofWritten? (.object (before ++ after))
  arrays : ∀ (kind : Kind) (front back : List Json), front.length ≤ kind.fields.length →
    (∀ p ∈ (kind.declared.drop front.length).zip back, p.1.2.assumed? = some p.2) →
    Envelope.ofWritten? (.array (.string kind.name :: front)) =
      Envelope.ofWritten? (.object (objectOf kind (front ++ back)))
  noOtherArrays : ∀ (items : List Json) (e : Envelope),
    Envelope.ofWritten? (.array items) = some e →
    ∃ values, items = .string e.kind.name :: values ∧ values.length ≤ e.kind.fields.length

/-- Envelopes are read exactly, and do not depend on their presentation. -/
theorem readInAnyForm : ReadInAnyForm where
  exact _ _ := ofMembers?_eq_some_iff
  accepted _ := isSome_ofMembers?_iff
  order _ _ := ofMembers?_eq_of_perm
  others _ _ _ := ofMembers?_insert
  arrays _ _ _ := ofItems?_eq
  noOtherArrays _ _ := exists_of_ofItems?_eq_some

end RevenueDesk.Chat

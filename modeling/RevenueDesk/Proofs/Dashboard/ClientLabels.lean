/-
# The names that clients are shown by

A chart shows a client by a part of its full name: what stands behind the marker and before the
first dash, or the whole name if only blanks stand there (`Shortens`).  There is just one such
name, and it is the one that is shown (`shortens_iff`).

The full names are keys of the ledger, and a key names itself: it is neither empty nor surrounded
by blanks, whatever stands in the rows (`names_keyOf`).  So the marker alone, or nothing but
blanks before a dash, does not leave a client without a name.  Every client on the chart, and the
leading one above it, is shown by a name that can be read (`clientLabels`): it is not empty, has
no blank at its ends, stands in the full name, and has a dash only if it is the full name.
-/
import RevenueDesk.Proofs.Dashboard.ClientEntries
import RevenueDesk.Proofs.Ledger.Belonging

namespace RevenueDesk

open Text (isBlank Trims)

namespace Ledger

/-! ## The client in a full name -/

/-- `part` is the client in a full name.  It stands behind the marker, or at the beginning of a
name without it, and before the first dash, or the end of a name without one. -/
structure IsClientPart (fullName part : List Char) : Prop where
  no_dash : '-' ∉ part
  around : ∃ before after, fullName = before ++ (part ++ after) ∧
    (before = clientMarker ∨ before = [] ∧ ¬ clientMarker <+: fullName) ∧
    ∀ c, after.head? = some c → c = '-'

/-- The client in a full name. -/
def clientPart (fullName : List Char) : List Char :=
  ((Text.dropStart? clientMarker fullName).getD fullName).takeWhile (· != '-')

section Parts

variable {cs part : List Char}

lemma isClientPart_clientPart (cs : List Char) : IsClientPart cs (clientPart cs) where
  no_dash hmem := by simpa using List.mem_takeWhile_imp hmem
  around := by
    unfold clientPart
    cases hrest : Text.dropStart? clientMarker cs with
    | some rest =>
      refine ⟨clientMarker, rest.dropWhile (· != '-'), ?_, Or.inl rfl,
        fun _ => Text.eq_of_head?_dropWhile_ne⟩
      rw [Option.getD_some, List.takeWhile_append_dropWhile]
      exact Text.dropStart?_eq_some_iff.mp hrest
    | none =>
      refine ⟨[], cs.dropWhile (· != '-'), ?_, Or.inr ⟨rfl, ?_⟩,
        fun _ => Text.eq_of_head?_dropWhile_ne⟩
      · rw [Option.getD_none, List.takeWhile_append_dropWhile, List.nil_append]
      · exact Text.dropStart?_eq_none_iff.mp hrest

/-- A full name has one client in it. -/
theorem isClientPart_iff : IsClientPart cs part ↔ clientPart cs = part := by
  refine ⟨fun h => ?_, fun h => h ▸ isClientPart_clientPart cs⟩
  obtain ⟨before, after, hcs, hbefore, hafter⟩ := h.around
  have hunmarked : (Text.dropStart? clientMarker cs).getD cs = part ++ after := by
    rcases hbefore with rfl | ⟨rfl, hmarker⟩
    · rw [Text.dropStart?_eq_some_iff.mpr hcs, Option.getD_some]
    · rw [Text.dropStart?_eq_none_iff.mpr hmarker, Option.getD_none, hcs, List.nil_append]
  rw [clientPart, hunmarked]
  refine (Text.span_eq (fun c hc => ?_) fun c hc => ?_).1
  · simpa using fun heq : c = '-' => h.no_dash (heq ▸ hc)
  · simp [hafter c hc]

lemma IsClientPart.isInfix (h : IsClientPart cs part) : part <:+: cs := by
  obtain ⟨before, after, rfl, -⟩ := h.around
  exact ⟨before, after, by simp⟩

end Parts

/-! ## What a full name is shortened to -/

/-- `name` is what a full name is shortened to. -/
inductive Shortens (fullName name : String) : Prop where
  /-- It is the client in it, without blanks around it. -/
  | client {part : List Char} (isPart : IsClientPart fullName.toList part) (ne : name ≠ "")
      (trims : Trims part name.toList)
  /-- It is all of it, without blanks around it, if only blanks stand in place of the client. -/
  | whole {part : List Char} (isPart : IsClientPart fullName.toList part)
      (blank : ∀ c ∈ part, isBlank c = true) (trims : Trims fullName.toList name.toList)

variable {fullName name : String}

lemma shortClientName_eq (fullName : String) : shortClientName fullName =
    if (Text.trim (clientPart fullName.toList)).isEmpty then Text.trimmed fullName
    else String.ofList (Text.trim (clientPart fullName.toList)) := rfl

lemma shortens_shortClientName (fullName : String) :
    Shortens fullName (shortClientName fullName) := by
  have hpart := isClientPart_clientPart fullName.toList
  rw [shortClientName_eq]
  split
  · rename_i hblank
    rw [List.isEmpty_iff, Text.trim_eq_nil_iff] at hblank
    exact .whole hpart hblank (Text.trims_trimmed fullName)
  · rename_i hblank
    rw [List.isEmpty_iff] at hblank
    refine .client hpart (fun hempty => hblank (String.ofList_eq_empty_iff.mp hempty)) ?_
    rw [String.toList_ofList]
    exact Text.trims_trim _

/-- A full name is shortened to one name, the one that a chart shows. -/
theorem shortens_iff : Shortens fullName name ↔ shortClientName fullName = name := by
  refine ⟨fun h => ?_, fun h => h ▸ shortens_shortClientName fullName⟩
  rw [shortClientName_eq]
  cases h with
  | client isPart ne trims =>
    have hne : ¬ name.toList.isEmpty := by
      rwa [List.isEmpty_iff, String.toList_eq_nil_iff]
    rw [isClientPart_iff.mp isPart, Text.trims_iff.mp trims, if_neg hne, String.ofList_toList]
  | whole isPart blank trims =>
    have hnil : (Text.trim (clientPart fullName.toList)).isEmpty := by
      rw [isClientPart_iff.mp isPart, List.isEmpty_iff]
      exact Text.trim_eq_nil_iff.mpr blank
    rw [if_pos hnil]
    exact Text.trims_toList_iff.mp trims

/-- Blanks alone before the dash are no client. -/
example : shortClientName "47D_ - Media" = "47D_ - Media" := by decide

/-! ## Names that can be read -/

/-- `name` can be read as a name of the client: there is something to read, no blank stands at
its ends, and it is a part of the full name without a dash, or all of it. -/
structure IsLabel (fullName name : String) : Prop where
  ne : name ≠ ""
  head_ok : ∀ c, name.toList.head? = some c → isBlank c = false
  last_ok : ∀ c, name.toList.getLast? = some c → isBlank c = false
  isInfix : name.toList <:+: fullName.toList
  dash : '-' ∈ name.toList → name = fullName
  /-- It is what the full name is shortened to. -/
  shortens : Shortens fullName name

/-- A text that names itself is shortened to a name that can be read. -/
theorem Shortens.isLabel (h : Shortens fullName name) (hfull : Names (some fullName) fullName) :
    IsLabel fullName name := by
  obtain ⟨hne, hself⟩ := names_iff.mp hfull
  cases h with
  | client isPart ne trims =>
    have hinfix : name.toList <:+: fullName.toList := trims.isInfix.trans isPart.isInfix
    have hdash : '-' ∉ name.toList := fun hmem => isPart.no_dash (trims.isInfix.subset hmem)
    exact
      { ne := ne
        head_ok := trims.head_ok
        last_ok := trims.last_ok
        isInfix := hinfix
        dash := fun hmem => absurd hmem hdash
        shortens := .client isPart ne trims }
  | whole isPart blank trims =>
    -- nothing is taken off a text that names itself
    obtain rfl : fullName = name := hself.symm.trans (Text.trims_toList_iff.mp trims)
    exact
      { ne := hne
        head_ok := trims.head_ok
        last_ok := trims.last_ok
        isInfix := List.infix_rfl
        dash := fun _ => rfl
        shortens := .whole isPart blank trims }

/-! ## The keys of the ledger -/

/-- A key names itself. -/
lemma names_keyOf (field : Option String) : Names (some (keyOf field)) (keyOf field) := by
  have hown : BelongsTo (Names field) (keyOf field) := belongsTo_names_iff.mpr rfl
  rcases hown with hnames | ⟨heq, -⟩
  · obtain ⟨hne, text, -, trims⟩ := hnames
    exact ⟨hne, _, rfl, trims.self⟩
  · rw [heq]
    exact names_iff.mpr (by decide)

/-- So does the key of the end of a ranking. -/
lemma names_of_mem_topWithOthers {α : Type} [Amount α] {rows : List (Row α)}
    {field : Row α → Option String} {n : ℕ} {g : Group α}
    (hg : g ∈ topWithOthers n (groupBy rows field)) : Names (some g.key) g.key := by
  rw [← List.take_append_drop n (topWithOthers n (groupBy rows field)), List.mem_append,
    take_topWithOthers le_rfl] at hg
  rcases hg with hfirst | hend
  · obtain ⟨row, -, hkey⟩ := mem_keys_groupBy.mp (List.mem_map_of_mem (List.mem_of_mem_take hfirst))
    rw [← hkey]
    exact names_keyOf (field row)
  · have hothers : Names (some others) others := names_iff.mpr (by decide)
    rw [eq_merged_of_mem_drop hend]
    exact hothers

end Ledger

/-! ## The chart -/

section Chart

variable {α : Type} [Amount α]

open Ledger

/-- The key of the end of the ranking would be shown as it is anyway. -/
lemma ExecutiveView.displayName_eq (key : String) : displayName key = shortClientName key := by
  unfold displayName
  split
  · rename_i hkey
    rw [hkey]
    decide
  · rfl

/-- The client that leads the ranking. -/
def Snapshot.leadingClient? (s : Snapshot α) : Option String :=
  ((groupBy s.rows Row.customer).map Group.key).head?

/-- The leading client is the first one on the chart. -/
lemma Snapshot.exists_head?_clients {s : Snapshot α} {top : TopEntry α}
    (h : (ExecutiveView.of s).topClient = some top) :
    ∃ c, (ExecutiveView.of s).clients.head? = some c ∧ s.leadingClient? = some c.fullName ∧
      c.name = top.name := by
  obtain ⟨g, hg, rfl⟩ := Option.map_eq_some_iff.mp h
  have hfirst : (topWithOthers ExecutiveView.topClients (groupBy s.rows Row.customer)).head? =
      some g := by
    rw [head?_topWithOthers (by decide)]
    exact hg
  refine ⟨⟨ExecutiveView.displayName g.key, g.key, g.revenue, g.count⟩, ?_, ?_,
    ExecutiveView.displayName_eq g.key⟩
  · rw [s.clients_eq, List.head?_map, hfirst, Option.map_some]
  · rw [leadingClient?, List.head?_map, hg, Option.map_some]

/-- What the clients of a snapshot are shown by. -/
structure ClientLabels (s : Snapshot α) : Prop where
  /-- An entry on the chart has a name that can be read as one of its client. -/
  entries : ∀ c ∈ (ExecutiveView.of s).clients, IsLabel c.fullName c.name
  /-- So has the client above the chart.  It leads the ranking, and the chart shows it first, by
  the same name. -/
  leader : ∀ top, (ExecutiveView.of s).topClient = some top →
    ∃ c, (ExecutiveView.of s).clients.head? = some c ∧ s.leadingClient? = some c.fullName ∧
      c.name = top.name ∧ IsLabel c.fullName top.name
  /-- There is one as soon as there are rows. -/
  leader_isSome : (ExecutiveView.of s).topClient.isSome ↔ s.rows ≠ []

/-- Clients are always shown by names that can be read. -/
theorem clientLabels (s : Snapshot α) : ClientLabels s := by
  have hentries : ∀ c ∈ (ExecutiveView.of s).clients, IsLabel c.fullName c.name := by
    intro c hc
    rw [s.clients_eq] at hc
    obtain ⟨g, hg, rfl⟩ := List.mem_map.mp hc
    refine Shortens.isLabel ?_ (names_of_mem_topWithOthers hg)
    exact shortens_iff.mpr (ExecutiveView.displayName_eq g.key).symm
  refine ⟨hentries, ?_, ?_⟩
  · intro top htop
    obtain ⟨c, hc, hleading, hname⟩ := Snapshot.exists_head?_clients htop
    exact ⟨c, hc, hleading, hname, hname ▸ hentries c (List.mem_of_mem_head? hc)⟩
  · show ((groupBy s.rows Row.customer).head?.map _).isSome ↔ _
    rw [Option.isSome_map, List.isSome_head?, Ne, groupBy_eq_nil_iff]

end Chart

end RevenueDesk

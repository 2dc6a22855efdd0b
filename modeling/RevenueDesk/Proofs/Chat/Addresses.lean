/-
# Which bases are addresses

An address is read part by part, and each part ends at the first mark that begins another one
(`of?_eq_some_iff`).  So nothing is an address that does not begin with one of the two schemes
(`exists_scheme`).
-/
import Mathlib.Data.List.TakeWhile
import Mathlib.Tactic.Common
import RevenueDesk.Chat.Address
import RevenueDesk.Proofs.Number.Numerals
import RevenueDesk.Proofs.Text.Parts
import RevenueDesk.Proofs.Text.Trimming

namespace RevenueDesk.Chat

/-! ## The parts of an address -/

/-- What stands behind a mark, with the mark in front. -/
def behind (mark : Char) (rest : Option (List Char)) : List Char := rest.elim [] (mark :: ·)

/-- What is sent of the parts, and with the fragment all that stands behind the slashes. -/
def Parts.sent (p : Parts) : List Char := p.authority ++ p.path ++ behind '?' p.query

def Parts.text (p : Parts) : List Char := p.sent ++ behind '#' p.fragment

/-- A text begins with the scheme and any number of slashes, and has the parts `p` behind them. -/
structure HasParts (cs : List Char) (p : Parts) : Prop where
  text_eq : ∃ scheme slashes, scheme.map Char.toLower = schemeText p.secure ∧
    (∀ c ∈ slashes, isSlash c = true) ∧ cs = scheme ++ ':' :: (slashes ++ p.text)
  authority_ok : ∀ c ∈ p.authority, isSlash c = false ∧ c ≠ '?' ∧ c ≠ '#'
  path_ok : ∀ c ∈ p.path, c ≠ '?' ∧ c ≠ '#'
  /-- A path begins with a slash, which would be skipped without an authority in front. -/
  path_head : ∀ c ∈ p.path.head?, isSlash c = true ∧ p.authority ≠ []
  query_ok : ∀ query ∈ p.query, '#' ∉ query

section Cutting

variable {mark : Char} {cs front : List Char} {rest : Option (List Char)}

lemma cutAt_eq_iff :
    cutAt mark cs = (front, rest) ↔ cs = front ++ behind mark rest ∧ mark ∉ front := by
  unfold cutAt
  rw [List.span_eq_takeWhile_dropWhile]
  constructor
  · intro h
    have hsplit := List.takeWhile_append_dropWhile (p := (· != mark)) (l := cs)
    have hfront : mark ∉ cs.takeWhile (· != mark) := fun hmem => by
      simpa using List.mem_takeWhile_imp hmem
    rcases hdrop : cs.dropWhile (· != mark) with _ | ⟨c, cs'⟩
    · obtain ⟨rfl, rfl⟩ : cs.takeWhile (· != mark) = front ∧ none = rest := by
        simpa [hdrop] using h
      rw [hdrop] at hsplit
      exact ⟨hsplit.symm, hfront⟩
    · obtain ⟨rfl, rfl⟩ : cs.takeWhile (· != mark) = front ∧ some cs' = rest := by
        simpa [hdrop] using h
      obtain rfl : c = mark := Text.eq_of_head?_dropWhile_ne (by rw [hdrop]; rfl)
      rw [hdrop] at hsplit
      exact ⟨hsplit.symm, hfront⟩
  · rintro ⟨rfl, hfront⟩
    have hbody : ∀ c ∈ front, (c != mark) = true := by
      intro c hc
      have hne : c ≠ mark := fun h => hfront (h ▸ hc)
      simpa using hne
    cases rest with
    | none =>
      have hend : ∀ c ∈ ([] : List Char).head?, (c != mark) = false := by simp
      obtain ⟨htake, hdrop⟩ := Text.span_eq hbody hend
      simp only [behind, Option.elim_none, htake, hdrop]
    | some rest =>
      have hmark : ∀ c ∈ (mark :: rest).head?, (c != mark) = false := by simp
      obtain ⟨htake, hdrop⟩ := Text.span_eq hbody hmark
      simp only [behind, Option.elim_some, htake, hdrop]

lemma secure?_eq_some_iff {secure : Bool} :
    secure? cs = some secure ↔ cs.map Char.toLower = schemeText secure := by
  have hdistinct : schemeText false ≠ schemeText true := by decide
  unfold secure?
  by_cases hplain : cs.map Char.toLower = schemeText false
  · cases secure <;> simp [hplain, hdistinct]
  · by_cases hsecure : cs.map Char.toLower = schemeText true
    · cases secure <;> simp [hsecure, hdistinct.symm]
    · cases secure <;> simp [hplain, hsecure]

lemma colon_not_mem_scheme {secure : Bool} (h : cs.map Char.toLower = schemeText secure) :
    ':' ∉ cs := by
  intro hmem
  have hlower : ':' ∈ schemeText secure := h ▸ List.mem_map.mpr ⟨':', hmem, rfl⟩
  revert hlower
  cases secure <;> decide

end Cutting

section Parts

variable {cs : List Char} {p : Parts}

lemma hasParts_of_of? (h : Parts.of? cs = some p) : HasParts cs p := by
  unfold Parts.of? at h
  rcases hcolon : cutAt ':' cs with ⟨scheme, _ | rest⟩
  · simp [hcolon] at h
  · obtain ⟨hcs, -⟩ := cutAt_eq_iff.mp hcolon
    rcases hfragment : cutAt '#' (rest.dropWhile isSlash) with ⟨sent, fragment⟩
    rcases hquery : cutAt '?' sent with ⟨place, query⟩
    simp only [hcolon, hfragment, hquery, List.span_eq_takeWhile_dropWhile,
      Option.map_eq_some_iff] at h
    obtain ⟨secure, hscheme, rfl⟩ := h
    obtain ⟨hrest, hnofragment⟩ := cutAt_eq_iff.mp hfragment
    obtain ⟨hsent, hnoquery⟩ := cutAt_eq_iff.mp hquery
    have hplace := List.takeWhile_append_dropWhile (p := (!isSlash ·)) (l := place)
    have hmem : ∀ c ∈ place, c ≠ '?' ∧ c ≠ '#' := fun c hc =>
      ⟨fun h => hnoquery (h ▸ hc), fun h => hnofragment (hsent ▸ List.mem_append_left _ (h ▸ hc))⟩
    refine ⟨⟨scheme, rest.takeWhile isSlash, secure?_eq_some_iff.mp hscheme,
      fun c hc => List.mem_takeWhile_imp hc, ?_⟩, ?_, ?_, ?_, ?_⟩
    · rw [Parts.text, Parts.sent, hplace, ← hsent, ← hrest, List.takeWhile_append_dropWhile]
      exact hcs
    · intro c hc
      exact ⟨by simpa using List.mem_takeWhile_imp hc,
        hmem c ((List.takeWhile_sublist _).subset hc)⟩
    · exact fun c hc => hmem c ((List.dropWhile_sublist _).subset hc)
    · intro c hc
      have hslash : isSlash c = true := by simpa using Text.head?_dropWhile place c hc
      refine ⟨hslash, fun hnil => ?_⟩
      dsimp only at hc hnil
      rw [hnil, List.nil_append] at hplace
      have hhead : (rest.dropWhile isSlash).head? = some c := by
        rw [hrest, hsent, ← hplace]
        simp [Option.mem_def.mp hc]
      simp [Text.head?_dropWhile rest c hhead] at hslash
    · rintro query rfl hmark
      exact hnofragment (hsent ▸ List.mem_append_right _ (List.mem_cons_of_mem _ hmark))

/-- Behind the slashes there are no more slashes. -/
lemma HasParts.head?_text (h : HasParts cs p) : ∀ c ∈ p.text.head?, isSlash c = false := by
  intro c hc
  rcases hauthority : p.authority with _ | ⟨a, authority⟩
  · have hpath : p.path = [] := by
      rcases hpath : p.path with _ | ⟨d, path⟩
      · rfl
      · exact absurd hauthority (h.path_head d (by rw [hpath]; rfl)).2
    have hmark : '?' = c ∨ '#' = c := by
      rw [Parts.text, Parts.sent, hauthority, hpath] at hc
      rcases hquery : p.query with _ | query
      · rcases hfragment : p.fragment with _ | fragment
        · simp [hquery, hfragment, behind] at hc
        · exact .inr (by simpa [hquery, hfragment, behind] using hc)
      · exact .inl (by simpa [hquery, behind] using hc)
    rcases hmark with rfl | rfl <;> decide
  · obtain rfl : a = c := by simpa [Parts.text, Parts.sent, hauthority] using hc
    exact (h.authority_ok a (hauthority ▸ List.mem_cons_self)).1

lemma HasParts.of?_eq (h : HasParts cs p) : Parts.of? cs = some p := by
  obtain ⟨scheme, slashes, hscheme, hslashes, rfl⟩ := h.text_eq
  have hcolon : cutAt ':' (scheme ++ ':' :: (slashes ++ p.text)) =
      (scheme, some (slashes ++ p.text)) :=
    cutAt_eq_iff.mpr ⟨rfl, colon_not_mem_scheme hscheme⟩
  have hskip : (slashes ++ p.text).dropWhile isSlash = p.text :=
    (Text.span_eq hslashes h.head?_text).2
  have hplace : ∀ c ∈ p.authority ++ p.path, c ≠ '?' ∧ c ≠ '#' := by
    intro c hc
    rcases List.mem_append.mp hc with hc | hc
    · exact (h.authority_ok c hc).2
    · exact h.path_ok c hc
  have hquery : cutAt '?' p.sent = (p.authority ++ p.path, p.query) :=
    cutAt_eq_iff.mpr ⟨rfl, fun hmem => (hplace _ hmem).1 rfl⟩
  have hfragment : cutAt '#' p.text = (p.sent, p.fragment) := by
    refine cutAt_eq_iff.mpr ⟨rfl, fun hmem => ?_⟩
    rcases List.mem_append.mp hmem with hmem | hmem
    · exact (hplace _ hmem).2 rfl
    · rcases hquery : p.query with _ | query
      · simp [hquery, behind] at hmem
      · exact h.query_ok query hquery (by simpa [hquery, behind] using hmem)
  have hauthority : ∀ c ∈ p.authority, (!isSlash c) = true := fun c hc => by
    simp [(h.authority_ok c hc).1]
  have hpath : ∀ c ∈ p.path.head?, (!isSlash c) = false := fun c hc => by
    simp [(h.path_head c hc).1]
  obtain ⟨htake, hdrop⟩ := Text.span_eq hauthority hpath
  simp only [Parts.of?, hcolon, secure?_eq_some_iff.mpr hscheme, hskip, hfragment, hquery,
    List.span_eq_takeWhile_dropWhile, htake, hdrop, Option.map_some]

/-- The parts of a text are told by what stands in front of each mark. -/
theorem of?_eq_some_iff : Parts.of? cs = some p ↔ HasParts cs p :=
  ⟨hasParts_of_of?, HasParts.of?_eq⟩

end Parts

/-! ## Schemes -/

section Schemes

variable {rules : NameRules} {text base : String} {scheme rest : List Char} {a : Address}

lemma toLower_eq_self {c : Char} (h : c ≤ ' ') : c.toLower = c := by
  have hsmall : c.val.toNat ≤ 32 := h
  refine dif_neg fun hcapital => ?_
  have hlarge : 65 ≤ c.val.toNat := hcapital.1
  omega

/-- The letters of a scheme are no blanks. -/
lemma lt_of_mem_scheme {secure : Bool} (h : scheme.map Char.toLower = schemeText secure) :
    ∀ c ∈ scheme, ' ' < c := by
  intro c hc
  have hletters : ∀ c ∈ schemeText secure, ' ' < c := by cases secure <;> decide
  by_contra hle
  have hlower := hletters c.toLower (h ▸ List.mem_map_of_mem hc)
  rw [toLower_eq_self (Char.not_lt.mp hle)] at hlower
  exact hle hlower

lemma ne_break_of_lt {c : Char} (h : ' ' < c) : c ≠ '\t' ∧ c ≠ '\n' ∧ c ≠ '\r' := by
  refine ⟨?_, ?_, ?_⟩ <;> rintro rfl <;> revert h <;> decide

/-- A text without blanks counts as a whole. -/
lemma written_eq_self (h : ∀ c ∈ text.toList, ' ' < c) : Address.written text = text.toList := by
  have hblank : ∀ c ∈ text.toList, decide (c ≤ ' ') = false := fun c hc => by
    simpa using h c hc
  have hstart : text.toList.dropWhile (· ≤ ' ') = text.toList :=
    Text.dropWhile_eq_self fun c hc => hblank c (List.mem_of_mem_head? hc)
  have hend : Text.dropEndWhile (· ≤ ' ') text.toList = text.toList :=
    Text.dropEndWhile_eq_self fun c hc => hblank c (List.mem_of_getLast? hc)
  rw [Address.written, hstart, hend, List.filter_eq_self]
  intro c hc
  have hbreak : c ≠ '\t' ∧ c ≠ '\n' ∧ c ≠ '\r' := ne_break_of_lt (h c hc)
  simpa [and_assoc] using hbreak

/-- What counts of a text up to a colon is what is no blank. -/
lemma exists_colon (h : Address.written text = scheme ++ ':' :: rest)
    (hscheme : ∀ c ∈ scheme, ' ' < c) :
    ∃ front back, text.toList = front ++ ':' :: back ∧ front.filter (' ' < ·) = scheme := by
  obtain ⟨after, hafter, -⟩ :=
    Text.exists_dropEndWhile_append (· ≤ ' ') (text.toList.dropWhile (· ≤ ' '))
  have htext := List.takeWhile_append_dropWhile (p := (· ≤ ' ')) (l := text.toList)
  unfold Address.written at h
  obtain ⟨front, back, hkept, hfront, hback⟩ := List.filter_eq_append_iff.mp h
  obtain ⟨skipped, back, rfl, hskipped, -, -⟩ := List.filter_eq_cons_iff.mp hback
  refine ⟨text.toList.takeWhile (· ≤ ' ') ++ (front ++ skipped), back ++ after, ?_, ?_⟩
  · rw [hafter, hkept] at htext
    simpa using htext.symm
  · have hblank : (text.toList.takeWhile (· ≤ ' ')).filter (' ' < ·) = [] := by
      rw [List.filter_eq_nil_iff]
      intro c hc
      simpa using List.mem_takeWhile_imp hc
    have hbreaks : skipped.filter (' ' < ·) = [] := by
      rw [List.filter_eq_nil_iff]
      intro c hc
      have hbreak := hskipped c hc
      simp only [Bool.and_eq_true, bne_iff_ne, ne_eq, not_and_or, not_not] at hbreak
      rcases hbreak with (rfl | rfl) | rfl <;> decide
    have hword : front.filter (' ' < ·) = scheme := by
      have hall : scheme.filter (' ' < ·) = scheme := by
        rw [List.filter_eq_self]
        simpa using hscheme
      rw [← hall, ← hfront, List.filter_filter]
      congr 1
      funext c
      by_cases hc : ' ' < c
      · simp [hc, ne_break_of_lt hc]
      · simp [hc]
    rw [List.filter_append, List.filter_append, hblank, hbreaks, hword]
    simp

lemma secure_ofParts? {p : Parts} (h : Address.ofParts? rules p = some a) :
    a.secure = p.secure := by
  simp only [Address.ofParts?, Option.bind_eq_bind, Option.bind_eq_some_iff] at h
  obtain ⟨host, -, port, -, h⟩ := h
  split at h
  · rw [← Option.some.inj h]
  · simp at h

/-- A base is no address unless it begins with one of the schemes. -/
theorem exists_scheme (h : Address.ofText? rules (endpoint base) = some a) :
    ∃ front back, base.toList = front ++ ':' :: back ∧
      (front.filter (' ' < ·)).map Char.toLower = schemeText a.secure := by
  obtain ⟨p, hp, ha⟩ := Option.bind_eq_some_iff.mp h
  obtain ⟨scheme, slashes, hscheme, -, hwritten⟩ := (of?_eq_some_iff.mp hp).text_eq
  obtain ⟨front, back, hendpoint, hfront⟩ := exists_colon hwritten (lt_of_mem_scheme hscheme)
  obtain ⟨slashes, hbase, -⟩ := Text.exists_dropEndWhile_append (· == '/') base.toList
  -- the colon does not stand in the path of the interface
  obtain ⟨more, hmore⟩ :
      ∃ more, Text.dropEndWhile (· == '/') base.toList = front ++ ':' :: more := by
    have hnot : ':' ∉ interfacePath.toList := by decide
    rw [endpoint, String.toList_append, String.toList_ofList] at hendpoint
    rcases List.append_eq_append_iff.mp hendpoint with ⟨rest, -, hrest⟩ | ⟨rest, hrest, hpath⟩
    · rw [hrest] at hnot
      simp at hnot
    · rcases rest with _ | ⟨c, rest⟩
      · rw [List.nil_append] at hpath
        rw [← hpath] at hnot
        simp at hnot
      · obtain ⟨rfl, -⟩ := List.cons.inj hpath
        exact ⟨rest, hrest⟩
  refine ⟨front, more ++ slashes, ?_, ?_⟩
  · rw [hbase, hmore]
    simp
  · rw [hfront, secure_ofParts? ha, hscheme]

example : Address.ofText? (fun _ => none) " HTTPS:\\me@NL.example:443/a/../b?q#f" =
    some ⟨true, "nl.example", "/b?q"⟩ := by decide +kernel

end Schemes

end RevenueDesk.Chat

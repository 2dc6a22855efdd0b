/-
# Plain bases

A base is *plain* if it is spelled as one usually spells it: one of the schemes, in any letter
case, a host, perhaps a number, and a path, all of letters, digits and a few marks, with any number
of slashes at the end.  The host is a name whose last part begins with a letter, or four decimal
numbers.

A plain base is an address on every desk, and the same one whatever the rules for names of other
scripts are (`ofText?_endpoint`): that of its host, with the path of the interface behind its own.
-/
import Mathlib.Data.List.TakeWhile
import Mathlib.Tactic.Common
import RevenueDesk.Proofs.Chat.Addresses
import RevenueDesk.Proofs.Number.Numerals
import RevenueDesk.Proofs.Text.Parts

namespace RevenueDesk.Chat

open Digits (numeral)

/-- The characters that stand for themselves wherever they are. -/
def unreserved : List Char :=
  "ABCDEFGHIJKLMNOPQRSTUVWXYZabcdefghijklmnopqrstuvwxyz0123456789-._~".toList

/-- A part of a host between dots, which does not stand for a name of another script. -/
structure IsLabel (l : List Char) : Prop where
  ne_nil : l ≠ []
  chars : ∀ c ∈ l, c ∈ unreserved ∧ c ≠ '.'
  plain : ¬ "xn--".toList <+: l.map Char.toLower

/-- A part of a path between slashes, which stands for itself. -/
structure IsSegment (s : List Char) : Prop where
  ne_nil : s ≠ []
  chars : ∀ c ∈ s, c ∈ unreserved
  no_dots : s ≠ ['.'] ∧ s ≠ ['.', '.']

/-- The parts of a name, the last one beginning with a letter, or four decimal numbers. -/
inductive HostKind : List (List Char) → Prop where
  | name (front : List (List Char)) (c : Char) (cs : List Char) (hc : c.isAlpha = true) :
      HostKind (front ++ [c :: cs])
  | octets (a b c d : Fin 256) : HostKind ([a, b, c, d].map fun n : Fin 256 => Nat.toDigits 10 n)

/-- A base as one usually spells it. -/
structure PlainBase where
  secure : Bool
  scheme : List Char
  /-- The host, up to its first dot and behind it. -/
  host : List Char
  domains : List (List Char)
  port : Option ℕ
  path : List (List Char)
  /-- How many slashes stand at the end. -/
  slashes : ℕ
  scheme_eq : scheme.map Char.toLower = (if secure then "https" else "http").toList
  labels_ok : ∀ l ∈ host :: domains, IsLabel l
  kind : HostKind (host :: domains)
  port_lt : ∀ n ∈ port, n < 65536
  path_ok : ∀ s ∈ path, IsSegment s

namespace PlainBase

variable (b : PlainBase)

def hostText : List Char := b.host ++ b.domains.flatMap ('.' :: ·)

def portText : List Char := b.port.elim [] fun n => ':' :: Nat.toDigits 10 n

def standardPort : ℕ := if b.secure then 443 else 80

/-- A port that is the standard one is not told. -/
def shownPort : List Char := if b.port = some b.standardPort then [] else b.portText

def pathText : List Char := b.path.flatMap ('/' :: ·)

def text : String :=
  String.ofList (b.scheme ++ ':' :: ("//".toList ++ (b.hostText ++ b.portText ++ b.pathText)) ++
    List.replicate b.slashes '/')

/-- The address that questions are sent to. -/
def address : Address where
  secure := b.secure
  authority := String.ofList (b.hostText.map Char.toLower ++ b.shownPort)
  target := String.ofList b.pathText ++ "/api/v1/generate-sql"

end PlainBase

/-! ## Characters that stand for themselves -/

section Unreserved

variable {c : Char} {cs : List Char}

lemma isSlash_of_unreserved : ∀ c ∈ unreserved, isSlash c = false := by decide

lemma lt_of_unreserved : ∀ c ∈ unreserved, ' ' < c := by decide

lemma not_mark_of_unreserved : ∀ c ∈ unreserved, c ∉ [':', '?', '#', '@', '[', ']', '%'] := by
  decide

lemma isNameChar_of_unreserved : ∀ c ∈ unreserved, Host.isNameChar c.toLower = true := by
  decide

lemma toLower_eq_dot_iff : ∀ c ∈ unreserved, (c.toLower == '.') = (c == '.') := by decide

lemma percentDecoded_unreserved (h : ∀ c ∈ cs, c ∈ unreserved) :
    Host.percentDecoded cs = cs.map fun c => c.toNat.toUInt8 := by
  have hbyte : ∀ c ∈ unreserved, String.utf8EncodeChar c = [c.toNat.toUInt8] := by decide
  induction cs using Host.percentDecoded.induct with
  | case1 => rfl
  | case2 c => simp [Host.percentDecoded, hbyte c (h c (by simp))]
  | case3 c d => simp [Host.percentDecoded, hbyte c (h c (by simp)), hbyte d (h d (by simp))]
  | case4 c d e cs high low hhex ih =>
    have hc := not_mark_of_unreserved c (h c (by simp))
    simp_all
  | case5 c d e cs hhex ih =>
    have hc : c ≠ '%' := by
      have hmark := not_mark_of_unreserved c (h c (by simp))
      simp_all
    have hrest := ih fun x hx => h x (List.mem_cons_of_mem _ hx)
    simp [Host.percentDecoded, hc, hbyte c (h c (by simp)), hrest]

lemma ofNat_toUInt8_unreserved (h : ∀ c ∈ cs, c ∈ unreserved) :
    (cs.map fun c => c.toNat.toUInt8).map (fun b => Char.ofNat b.toNat) = cs := by
  have hback : ∀ c ∈ unreserved, Char.ofNat c.toNat.toUInt8.toNat = c := by decide
  rw [List.map_map]
  exact (List.map_congr_left fun c hc => hback c (h c hc)).trans (List.map_id cs)

lemma plainDots_unreserved (h : ∀ c ∈ cs, c ∈ unreserved) : plainDots cs = cs := by
  induction cs using plainDots.induct with
  | case1 => rfl
  | case2 c => rfl
  | case3 c d => rfl
  | case4 c d e cs hencoded ih =>
    have hc := not_mark_of_unreserved c (h c (by simp))
    simp_all
  | case5 c d e cs hnot ih =>
    rw [plainDots, if_neg hnot, ih fun x hx => h x (List.mem_cons_of_mem _ hx)]

lemma encoded_unreserved (h : ∀ c ∈ cs, c ∈ unreserved) : encoded refusedInPath cs = cs := by
  have hkept : ∀ c ∈ unreserved, (isPrintable c && !refusedInPath.contains c) = true := by
    decide
  have hself : encoded refusedInPath cs = cs.flatMap fun c => [c] :=
    List.flatMap_congr fun c hc => by rw [if_pos (hkept c (h c hc))]
  simpa using hself

end Unreserved

/-! ## Pieces behind separators -/

/-- Pieces with a separator in front of each are the parts of the text. -/
lemma splitWhere_flatMap {p : Char → Bool} {c : Char} (hc : p c = true) {first : List Char}
    {rest : List (List Char)} (h : ∀ w ∈ first :: rest, ∀ x ∈ w, p x = false) :
    Text.splitWhere p (first ++ rest.flatMap (c :: ·)) = first :: rest := by
  induction rest generalizing first with
  | nil => simpa using Text.splitWhere_of_forall_not (h first (by simp))
  | cons w rest ih =>
    rw [List.flatMap_cons, List.cons_append, Text.splitWhere_append_cons hc,
      Text.splitWhere_of_forall_not (h first (by simp)),
      ih fun v hv => h v (List.mem_cons_of_mem _ hv)]
    rfl

/-- If no piece is empty, the text ends with one of them. -/
lemma exists_last_piece (c : Char) (first : List Char) (rest : List (List Char)) :
    ∃ front, ∃ w ∈ first :: rest, first ++ rest.flatMap (c :: ·) = front ++ w := by
  rcases List.eq_nil_or_concat rest with rfl | ⟨init, last, rfl⟩
  · exact ⟨[], first, by simp, by simp⟩
  · exact ⟨first ++ init.flatMap (c :: ·) ++ [c], last, by simp, by simp⟩

/-! ## Numbers -/

section Numbers

variable {cs : List Char}

lemma numberIn?_digits (h : ∀ c ∈ cs, c.isDigit = true) :
    Host.numberIn? 10 cs = some (Nat.ofDigitChars 10 cs 0) := by
  have hfrom : ∀ value, cs.foldlM (fun value c =>
      ((Digits.hexValue? c).filter (· < 10)).map (value * 10 + ·)) value =
        some (Nat.ofDigitChars 10 cs value) := by
    induction cs with
    | nil => exact fun value => rfl
    | cons c cs ih =>
      intro value
      obtain ⟨hc, hcs⟩ := List.forall_mem_cons.mp h
      have hrange := Digits.isDigit_iff.mp hc
      have hvalue : Digits.hexValue? c = some (c.toNat - 48) := if_pos hrange
      have hdigit : (Digits.hexValue? c).filter (· < 10) = some (c.toNat - 48) := by
        rw [hvalue]
        exact Option.filter_some_pos (decide_eq_true (by omega))
      have hstep : value * 10 + (c.toNat - 48) = 10 * value + (c.toNat - '0'.toNat) := by
        rw [Nat.mul_comm]
        rfl
      rw [List.foldlM_cons, Nat.ofDigitChars_cons, ← hstep, ← ih hcs, hdigit]
      rfl
  exact hfrom 0

lemma numberIn?_toDigits (n : ℕ) : Host.numberIn? 10 (Nat.toDigits 10 n) = some n := by
  rw [numberIn?_digits fun c hc => Nat.isDigit_of_mem_toDigits (by decide) (by decide) hc,
    Nat.ofDigitChars_ten_toDigits]

lemma unreserved_of_mem_toDigits {n : ℕ} : ∀ c ∈ Nat.toDigits 10 n, c ∈ unreserved := by
  intro c hc
  have hdigit := Digits.isDigit_iff.mp (Nat.isDigit_of_mem_toDigits (by decide) (by decide) hc)
  have hall : ∀ k < 10, Char.ofNat (48 + k) ∈ unreserved := by decide
  have hchar : Char.ofNat (48 + (c.toNat - 48)) = c := by
    rw [Nat.add_sub_cancel' hdigit.1, Char.ofNat_toNat]
  exact hchar ▸ hall _ (by omega)

lemma map_toLower_toDigits (n : ℕ) : (Nat.toDigits 10 n).map Char.toLower = Nat.toDigits 10 n := by
  have hself : ∀ c ∈ unreserved, c.isDigit = true → c.toLower = c := by decide
  refine (List.map_congr_left fun c hc => ?_).trans (List.map_id _)
  exact hself c (unreserved_of_mem_toDigits c hc)
    (Nat.isDigit_of_mem_toDigits (by decide) (by decide) hc)

lemma portText?_port (secure : Bool) {port : Option ℕ} (h : ∀ n ∈ port, n < 65536) :
    portText? secure (port.elim [] fun n => ':' :: Nat.toDigits 10 n) =
      some (if port = some (usualPort secure) then []
        else port.elim [] fun n => ':' :: Nat.toDigits 10 n) := by
  rcases port with _ | n
  · rfl
  · obtain ⟨d, ds, hdigits⟩ := List.exists_cons_of_ne_nil (Nat.toDigits_ne_nil (b := 10) (n := n))
    have hread := numberIn?_toDigits n
    rw [hdigits] at hread
    simp only [Option.elim_some, hdigits, portText?, hread, Option.some.injEq]
    split
    · rfl
    · rw [if_pos (h n rfl), Digits.numeral_eq_toDigits, hdigits]

end Numbers

/-! ## Users -/

section Users

variable {cs suffix : List Char}

lemma withoutUser_eq_self (h : ∀ c ∈ cs, (c != '@') = true) : withoutUser cs = cs := by
  have hall : cs.reverse.takeWhile (· != '@') = cs.reverse :=
    List.takeWhile_eq_self_iff.mpr fun c hc => h c (List.mem_reverse.mp hc)
  rw [withoutUser, hall, List.reverse_reverse]

lemma keptUser_eq_nil (h : ∀ c ∈ cs, (c != '@') = true) : keptUser cs = [] := by
  have hnone : Text.dropEndWhile (· != '@') cs = [] := Text.dropEndWhile_eq_nil_iff.mpr h
  rw [keptUser, hnone]
  decide

lemma splitColon_append (hcs : ∀ c ∈ cs, c ≠ ':' ∧ c ≠ '[' ∧ c ≠ ']')
    (hsuffix : ∀ c ∈ suffix.head?, c = ':') : splitColon false (cs ++ suffix) = (cs, suffix) := by
  induction cs with
  | nil =>
    rcases suffix with _ | ⟨c, suffix⟩
    · rfl
    · obtain rfl := hsuffix c rfl
      rfl
  | cons c cs ih =>
    obtain ⟨⟨hcolon, hopen, hclose⟩, hrest⟩ := List.forall_mem_cons.mp hcs
    simp [splitColon, hcolon, hopen, hclose, ih hrest]

end Users

/-! ## Hosts -/

section Hosts

variable {rules : NameRules} {first : List Char} {rest : List (List Char)}

lemma chars_of_labels (h : ∀ l ∈ first :: rest, IsLabel l) :
    ∀ c ∈ first ++ rest.flatMap ('.' :: ·), c ∈ unreserved := by
  intro c hc
  rcases List.mem_append.mp hc with hc | hc
  · exact ((h first List.mem_cons_self).chars c hc).1
  · obtain ⟨l, hl, hc⟩ := List.mem_flatMap.mp hc
    rcases List.mem_cons.mp hc with rfl | hc
    · decide
    · exact ((h l (List.mem_cons_of_mem _ hl)).chars c hc).1

lemma isPlainName_of_labels (h : ∀ l ∈ first :: rest, IsLabel l) :
    Host.isPlainName (first ++ rest.flatMap ('.' :: ·)) = true := by
  have hascii : ∀ c ∈ unreserved, c.toNat < 0x80 := by decide
  have hparts : Text.splitWhere (· == '.') (first ++ rest.flatMap ('.' :: ·)) = first :: rest :=
    splitWhere_flatMap (by decide) fun l hl c hc => by simpa using ((h l hl).chars c hc).2
  have hplain : ∀ l ∈ first :: rest, Host.isEncodedPart l = false := by
    intro l hl
    have hnot := (h l hl).plain
    rw [List.prefix_iff_eq_take, ← List.map_take] at hnot
    exact beq_eq_false_iff_ne.mpr fun heq => hnot heq.symm
  rw [Host.isPlainName, hparts, Bool.and_eq_true, List.all_eq_true, Bool.not_eq_true',
    List.any_eq_false]
  exact ⟨fun c hc => by simpa using hascii c (chars_of_labels h c hc),
    fun l hl => by simp [hplain l hl]⟩

lemma parts_of_labels (h : ∀ l ∈ first :: rest, IsLabel l) :
    Host.parts ((first ++ rest.flatMap ('.' :: ·)).map Char.toLower) =
      (first :: rest).map (List.map Char.toLower) := by
  have htext : (first ++ rest.flatMap ('.' :: ·)).map Char.toLower =
      first.map Char.toLower ++ (rest.map (List.map Char.toLower)).flatMap ('.' :: ·) := by
    rw [List.map_append, List.map_flatMap, List.flatMap_map]
    rfl
  have hsplit : Text.splitWhere (· == '.') ((first ++ rest.flatMap ('.' :: ·)).map Char.toLower) =
      (first :: rest).map (List.map Char.toLower) := by
    rw [htext]
    refine splitWhere_flatMap (by decide) fun w hw x hx => ?_
    obtain ⟨l, hl, rfl⟩ := List.mem_map.mp (List.map_cons ▸ hw)
    obtain ⟨c, hc, rfl⟩ := List.mem_map.mp hx
    obtain ⟨hunreserved, hdot⟩ := (h l hl).chars c hc
    rw [toLower_eq_dot_iff c hunreserved]
    simpa using hdot
  have hlast : ((first :: rest).map (List.map Char.toLower)).getLast? ≠ some [] := by
    intro hnil
    obtain ⟨l, hl, hlower⟩ := List.mem_map.mp (List.mem_of_getLast? hnil)
    exact (h l hl).ne_nil (List.map_eq_nil_iff.mp hlower)
  simp only [Host.parts, hsplit, hlast, and_false, if_false]

/-- A name whose last part begins with a letter is no number. -/
lemma endsInNumber_eq_false {front : List (List Char)} {c : Char} {cs : List Char}
    (hc : c ∈ unreserved) (halpha : c.isAlpha = true) :
    Host.endsInNumber (front ++ [c.toLower :: cs]) = false := by
  have hletter : ∀ c ∈ unreserved, c.isAlpha = true →
      Text.isDigit c.toLower = false ∧ c.toLower ≠ '0' ∧
        (Digits.hexValue? c.toLower).all (10 ≤ ·) = true := by decide
  obtain ⟨hdigit, hzero, hvalue⟩ := hletter c hc halpha
  have hnumber : Host.numberIn? 10 (c.toLower :: cs) = none := by
    rw [Host.numberIn?, List.foldlM_cons]
    rcases hhex : Digits.hexValue? c.toLower with _ | d
    · rfl
    · have hlarge : ¬ d < 10 := by simpa [hhex] using hvalue
      simp [hlarge]
  have hipv4 : Host.ipv4Number? (c.toLower :: cs) = none := by
    unfold Host.ipv4Number?
    split
    · rfl
    · rename_i heq
      exact absurd (List.cons.inj heq).1 hzero
    · exact hnumber
  simp [Host.endsInNumber, hdigit, hipv4]

lemma ipv4Number?_octet : ∀ n : Fin 256, Host.ipv4Number? (Nat.toDigits 10 n) = some (n : ℕ) := by
  decide +kernel

lemma ipv4?_octets (a b c d : Fin 256) :
    ∃ number, Host.ipv4? ([a, b, c, d].map fun n : Fin 256 => Nat.toDigits 10 n) = some number ∧
      Host.octets number = [a, b, c, d].map fun n : Fin 256 => (n : ℕ) := by
  refine ⟨((a.val * 256 + b) * 256 + c) * 256 + d, ?_, ?_⟩
  · simp [Host.ipv4?, ipv4Number?_octet]
  · have ha := a.isLt
    have hb := b.isLt
    have hc := c.isLt
    have hd := d.isLt
    simp only [Host.octets, List.map_cons, List.map_nil, List.cons.injEq, and_true]
    omega

/-- A host that does not begin with a bracket is a name. -/
lemma of?_eq_ofName? {cs : List Char} (hne : cs ≠ []) (h : ∀ c ∈ cs, c ∈ unreserved) :
    Host.of? rules cs = Host.ofName? rules cs := by
  obtain ⟨c, cs, rfl⟩ := List.exists_cons_of_ne_nil hne
  have hbracket : c ≠ '[' := by
    have hmark := not_mark_of_unreserved c (h c List.mem_cons_self)
    rintro rfl
    simp at hmark
  rw [Host.of?.eq_def]
  split
  · simp_all
  · simp_all
  · rfl

/-- The rules for names of other scripts do not come into it. -/
lemma ofName?_labels (h : ∀ l ∈ first :: rest, IsLabel l) :
    Host.ofName? rules (first ++ rest.flatMap ('.' :: ·)) =
      if Host.endsInNumber ((first :: rest).map (List.map Char.toLower)) then
        (Host.ipv4? ((first :: rest).map (List.map Char.toLower))).map .ipv4
      else some (.name ((first ++ rest.flatMap ('.' :: ·)).map Char.toLower)) := by
  have hchars := chars_of_labels h
  have hlooked : Host.lookedUp? rules
      (Host.percentDecoded (first ++ rest.flatMap ('.' :: ·))) =
        some ((first ++ rest.flatMap ('.' :: ·)).map Char.toLower) := by
    rw [percentDecoded_unreserved hchars, Host.lookedUp?, ofNat_toUInt8_unreserved hchars,
      if_pos (isPlainName_of_labels h)]
  have hgood : ¬ ((first ++ rest.flatMap ('.' :: ·)).map Char.toLower = [] ∨
      ¬ ((first ++ rest.flatMap ('.' :: ·)).map Char.toLower).all Host.isNameChar = true) := by
    have hne : first ++ rest.flatMap ('.' :: ·) ≠ [] := by
      simp [(h first List.mem_cons_self).ne_nil]
    rw [List.map_eq_nil_iff, List.all_map, List.all_eq_true, not_or, not_not]
    exact ⟨hne, fun c hc => isNameChar_of_unreserved c (hchars c hc)⟩
  rw [Host.ofName?, hlooked]
  simp only [Option.bind_eq_bind, Option.bind_some, if_neg hgood, parts_of_labels h]

/-- The host of a plain base. -/
lemma of?_labels (h : ∀ l ∈ first :: rest, IsLabel l) (hkind : HostKind (first :: rest)) :
    ∃ host, Host.of? rules (first ++ rest.flatMap ('.' :: ·)) = some host ∧
      host.text = (first ++ rest.flatMap ('.' :: ·)).map Char.toLower := by
  have hne : first ++ rest.flatMap ('.' :: ·) ≠ [] := by
    simp [(h first List.mem_cons_self).ne_nil]
  rw [of?_eq_ofName? hne (chars_of_labels h), ofName?_labels h]
  generalize hlabels : first :: rest = labels at hkind h
  cases hkind with
  | name front c cs hc =>
    have hunreserved := ((h (c :: cs) (by simp)).chars c List.mem_cons_self).1
    rw [List.map_append, List.map_singleton, List.map_cons,
      if_neg (by simp [endsInNumber_eq_false hunreserved hc])]
    exact ⟨_, rfl, rfl⟩
  | octets a b c d =>
    obtain ⟨number, hread, hoctets⟩ := ipv4?_octets a b c d
    have hlower :
        ([a, b, c, d].map fun n : Fin 256 => Nat.toDigits 10 n).map (List.map Char.toLower) =
          [a, b, c, d].map fun n : Fin 256 => Nat.toDigits 10 n := by
      simp [map_toLower_toDigits]
    have hends :
        Host.endsInNumber ([a, b, c, d].map fun n : Fin 256 => Nat.toDigits 10 n) = true := by
      simp [Host.endsInNumber, ipv4Number?_octet]
    rw [hlower, if_pos hends, hread]
    refine ⟨.ipv4 number, rfl, ?_⟩
    obtain ⟨rfl, rfl⟩ := List.cons.inj hlabels
    simp [Host.text, hoctets, Digits.numeral_eq_toDigits, List.intercalate, map_toLower_toDigits,
      show Char.toLower '.' = '.' by decide]

end Hosts

/-! ## Paths -/

section Paths

variable {segments : List (List Char)}

lemma resolveDots_segments (before : List (List Char)) (h : ∀ s ∈ segments, IsSegment s) :
    resolveDots before segments = before.reverse ++ segments := by
  induction segments generalizing before with
  | nil => simp [resolveDots]
  | cons s segments ih =>
    obtain ⟨hs, hrest⟩ := List.forall_mem_cons.mp h
    have hplain := plainDots_unreserved hs.chars
    simp [resolveDots, hplain, hs.no_dots.1, hs.no_dots.2, ih (s :: before) hrest]

/-- A path of segments is sent as it stands. -/
lemma sentPath_segments (hne : segments ≠ []) (h : ∀ s ∈ segments, IsSegment s) :
    sentPath (segments.flatMap ('/' :: ·)) = segments.flatMap ('/' :: ·) := by
  have hsplit : Text.splitWhere isSlash ([] ++ segments.flatMap ('/' :: ·)) = [] :: segments := by
    refine splitWhere_flatMap (by decide) fun s hs c hc => ?_
    rcases List.mem_cons.mp hs with rfl | hs
    · simp at hc
    · exact isSlash_of_unreserved c ((h s hs).chars c hc)
  rw [List.nil_append] at hsplit
  simp only [sentPath, hsplit, List.isEmpty_eq_false_iff.mpr hne, Bool.false_eq_true, if_false,
    resolveDots_segments [] h, List.reverse_nil, List.nil_append]
  exact List.flatMap_congr fun s hs => by rw [encoded_unreserved (h s hs).chars]

/-- The path of the interface as segments. -/
def interfaceSegments : List (List Char) :=
  ["api".toList, "v1".toList, "generate-sql".toList]

lemma toList_interfacePath : interfacePath.toList = interfaceSegments.flatMap ('/' :: ·) := by
  decide

lemma isSegment_interface : ∀ s ∈ interfaceSegments, IsSegment s := by
  intro s hs
  have hchars : ∀ s ∈ interfaceSegments, ∀ c ∈ s, c ∈ unreserved := by decide
  have hplain : ∀ s ∈ interfaceSegments, s ≠ [] ∧ s ≠ ['.'] ∧ s ≠ ['.', '.'] := by decide
  exact ⟨(hplain s hs).1, hchars s hs, (hplain s hs).2⟩

end Paths

/-! ## Bases -/

namespace PlainBase

variable (b : PlainBase)

/-- What stands between the two slashes and the path. -/
def place : List Char := b.hostText ++ b.portText

def wholePath : List Char := (b.path ++ interfaceSegments).flatMap ('/' :: ·)

lemma wholePath_eq : b.wholePath = b.pathText ++ interfacePath.toList := by
  rw [wholePath, List.flatMap_append, toList_interfacePath]
  rfl

lemma isSegment_wholePath : ∀ s ∈ b.path ++ interfaceSegments, IsSegment s := by
  intro s hs
  rcases List.mem_append.mp hs with hs | hs
  · exact b.path_ok s hs
  · exact isSegment_interface s hs

lemma mem_place {c : Char} (hc : c ∈ b.place) : c ∈ unreserved ∨ c = ':' := by
  rcases List.mem_append.mp hc with hc | hc
  · exact .inl (chars_of_labels b.labels_ok c hc)
  · rcases hport : b.port with _ | n
    · simp [portText, hport] at hc
    · rw [portText, hport, Option.elim_some, List.mem_cons] at hc
      exact hc.symm.imp_left (unreserved_of_mem_toDigits c)

lemma mem_wholePath {c : Char} (hc : c ∈ b.wholePath) : c ∈ unreserved ∨ c = '/' := by
  obtain ⟨s, hs, hc⟩ := List.mem_flatMap.mp hc
  rcases List.mem_cons.mp hc with rfl | hc
  · exact .inr rfl
  · exact .inl ((b.isSegment_wholePath s hs).chars c hc)

/-- In front of the slashes at the end there is no slash. -/
lemma exists_front : ∃ front, ∃ w : List Char, w ≠ [] ∧ (∀ c ∈ w, c ∈ unreserved) ∧
    b.place ++ b.pathText = front ++ w := by
  obtain ⟨front, w, hw, htext⟩ := exists_last_piece '/' b.place b.path
  rcases List.mem_cons.mp hw with rfl | hw
  · -- there is no path, so the port or the host comes last
    rcases hport : b.port with _ | n
    · obtain ⟨front', w, hw, hhost⟩ := exists_last_piece '.' b.host b.domains
      refine ⟨front ++ front', w, (b.labels_ok w hw).ne_nil,
        fun c hc => ((b.labels_ok w hw).chars c hc).1, ?_⟩
      have hplace : b.place = front' ++ w := by
        rw [place, portText, hport, hostText, hhost]
        simp
      rw [pathText, htext, hplace, List.append_assoc]
    · refine ⟨front ++ b.hostText ++ [':'], Nat.toDigits 10 n, Nat.toDigits_ne_nil,
        unreserved_of_mem_toDigits, ?_⟩
      have hplace : b.place = b.hostText ++ ':' :: Nat.toDigits 10 n := by
        rw [place, portText, hport, Option.elim_some]
      rw [pathText, htext, hplace]
      simp
  · exact ⟨front, w, (b.path_ok w hw).ne_nil, (b.path_ok w hw).chars, htext⟩

lemma toList_endpoint : (endpoint b.text).toList =
    b.scheme ++ ':' :: ("//".toList ++ (b.place ++ b.wholePath)) := by
  obtain ⟨front, w, hw, hchars, hsplit⟩ := b.exists_front
  have htext : b.text.toList = (b.scheme ++ ':' :: "//".toList ++ front ++ w) ++
      List.replicate b.slashes '/' := by
    rw [text, String.toList_ofList, ← place, hsplit]
    simp
  have hlast : ∀ c, (b.scheme ++ ':' :: "//".toList ++ front ++ w).getLast? = some c →
      (c == '/') = false := by
    intro c hc
    rw [List.getLast?_append_of_ne_nil _ hw] at hc
    have hslash := isSlash_of_unreserved c (hchars c (List.mem_of_getLast? hc))
    rw [isSlash, Bool.or_eq_false_iff] at hslash
    exact hslash.1
  have hslashes : Text.dropEndWhile (· == '/') (List.replicate b.slashes '/') = [] :=
    Text.dropEndWhile_eq_nil_iff.mpr fun c hc => by simp [List.eq_of_mem_replicate hc]
  rw [endpoint, String.toList_append, String.toList_ofList, htext, Text.dropEndWhile_append,
    if_pos hslashes, Text.dropEndWhile_eq_self hlast, wholePath_eq, ← List.append_assoc b.place,
    hsplit]
  simp

lemma written_endpoint : Address.written (endpoint b.text) = (endpoint b.text).toList := by
  have hall : ∀ c ∈ (endpoint b.text).toList, ' ' < c := by
    intro c hc
    rw [toList_endpoint] at hc
    rcases List.mem_append.mp hc with hc | hc
    · exact lt_of_mem_scheme b.scheme_eq c hc
    · have hmarks : ∀ c ∈ ':' :: "//".toList, ' ' < c := by decide
      rw [← List.cons_append] at hc
      rcases List.mem_append.mp hc with hc | hc
      · exact hmarks c hc
      · rcases List.mem_append.mp hc with hc | hc
        · rcases b.mem_place hc with hc | rfl
          · exact lt_of_unreserved c hc
          · decide
        · rcases b.mem_wholePath hc with hc | rfl
          · exact lt_of_unreserved c hc
          · decide
  exact written_eq_self hall

/-- The parts of the address. -/
def parts : Parts := ⟨b.secure, b.place, b.wholePath, none, none⟩

lemma hasParts : HasParts (endpoint b.text).toList b.parts where
  text_eq := by
    refine ⟨b.scheme, "//".toList, b.scheme_eq, by decide, ?_⟩
    rw [toList_endpoint]
    simp [Parts.text, Parts.sent, parts, behind]
  authority_ok := by
    intro c hc
    rcases b.mem_place hc with hc | rfl
    · have hmark := not_mark_of_unreserved c hc
      simp only [List.mem_cons, not_or] at hmark
      exact ⟨isSlash_of_unreserved c hc, hmark.2.1, hmark.2.2.1⟩
    · decide
  path_ok := by
    intro c hc
    rcases b.mem_wholePath hc with hc | rfl
    · have hmark := not_mark_of_unreserved c hc
      simp only [List.mem_cons, not_or] at hmark
      exact ⟨hmark.2.1, hmark.2.2.1⟩
    · decide
  path_head := by
    intro c hc
    have hplace : b.place ≠ [] := by
      simp [place, hostText, (b.labels_ok b.host List.mem_cons_self).ne_nil]
    have hslash : c = '/' := by
      rcases hpath : b.path with _ | ⟨s, path⟩ <;>
        simpa [parts, wholePath, hpath, interfaceSegments, eq_comm] using hc
    exact ⟨hslash ▸ by decide, hplace⟩
  query_ok := by simp [parts]

/-- The host is told apart from the port. -/
lemma splitColon_place : splitColon false b.place = (b.hostText, b.portText) := by
  have hsuffix : ∀ c ∈ b.portText.head?, c = ':' := by
    rcases hport : b.port with _ | n <;> simp [portText, hport]
  refine splitColon_append (fun c hc => ?_) hsuffix
  have hmark := not_mark_of_unreserved c (chars_of_labels b.labels_ok c hc)
  simp only [List.mem_cons, not_or] at hmark
  exact ⟨hmark.1, hmark.2.2.2.2.1, hmark.2.2.2.2.2.1⟩

lemma ne_at_of_mem_place : ∀ c ∈ b.place, (c != '@') = true := by
  intro c hc
  rcases b.mem_place hc with hc | rfl
  · have hmark := not_mark_of_unreserved c hc
    simp only [List.mem_cons, not_or] at hmark
    simpa using hmark.2.2.2.1
  · decide

/-- The address is no longer than the base with the path of the interface. -/
lemma length_whole_le (hlength : b.text.length ≤ 65000) :
    (schemeText b.secure ++ "://".toList ++ (b.hostText.map Char.toLower ++ b.shownPort) ++
      b.wholePath).length ≤ Address.longest := by
  have hshown : b.shownPort.length ≤ b.portText.length := by
    unfold shownPort
    split <;> simp
  have hscheme := congrArg List.length b.scheme_eq
  have hinterface : interfacePath.toList.length = 20 := by decide
  have hcolon : "://".toList.length = 3 := by decide
  have hslashes : "//".toList.length = 2 := by decide
  rw [text, String.length_ofList] at hlength
  simp only [wholePath_eq, schemeText, List.length_append, List.length_map, List.length_cons,
    Address.longest, hinterface, hcolon, hslashes] at hscheme hlength ⊢
  omega

/-- A plain base is an address, and which one does not depend on the rules for other names. -/
theorem ofText?_endpoint (rules : NameRules) (hlength : b.text.length ≤ 65000) :
    Address.ofText? rules (endpoint b.text) = some b.address := by
  have hparts : Parts.of? (Address.written (endpoint b.text)) = some b.parts := by
    rw [written_endpoint]
    exact of?_eq_some_iff.mpr b.hasParts
  obtain ⟨host, hhost, hname⟩ : ∃ host, Host.of? rules b.hostText = some host ∧
      host.text = b.hostText.map Char.toLower := of?_labels b.labels_ok b.kind
  have hport : portText? b.secure b.portText = some b.shownPort :=
    portText?_port b.secure b.port_lt
  have huser : withoutUser b.place = b.place := withoutUser_eq_self b.ne_at_of_mem_place
  have hkept : keptUser b.place = [] := keptUser_eq_nil b.ne_at_of_mem_place
  have hsent : sentPath b.wholePath = b.wholePath :=
    sentPath_segments (by simp [interfaceSegments]) b.isSegment_wholePath
  have hwhole := b.length_whole_le hlength
  rw [Address.ofText?, hparts, Option.bind_some]
  simp only [Address.ofParts?, parts, huser, splitColon_place, hkept, hsent, Option.elim_none,
    List.append_nil, Option.bind_eq_bind, hhost, Option.bind_some, hport, hname, if_pos hwhole]
  simp only [address, wholePath_eq, String.ofList_append, interfacePath, String.ofList_toList]

end PlainBase

end RevenueDesk.Chat

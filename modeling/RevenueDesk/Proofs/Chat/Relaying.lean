/-
# What the question service can do

A question is sent to the question service, and from there to wherever the responses point.
Which requests are made is told by a relation (`Reached`): the first one asks the question,
and each further one follows a response to the one before it, ten of them at the most.  Two
things can come of it: some response holds an *envelope* (`Brings`), or there is no answer
(`GivesNothing`).  One of the two always happens, and never both (`givesNothing_iff`).

* All requests that are seen are reached in this way (`reached_of_follow`), and each asks
  the question, in a form in which it is read as it stands, or asks for nothing but what is
  there (`Reached.poses_or_fetches`).
* The reply to an envelope is a function of the question and the envelope (`ask_of_brings`).
* Every way in which the service gives no answer leads to the same reply (`ask_of_nothing`).

The proofs follow the recursion of the relay: it comes by every request that is reached
(`follow_of_reached`), and some request is the last one (`exists_last`).
-/
import Mathlib.Tactic.Common
import RevenueDesk.Chat.Relay
import RevenueDesk.Proofs.Json.ReadBack
import RevenueDesk.Proofs.Text.Utf8

namespace RevenueDesk.Chat

/-- The query that the service made of a question, if it tells. -/
def Envelope.sql? : Envelope → Option String
  | .scalar _ _ sql => sql
  | .table _ _ sql => sql
  | .empty _ sql => sql
  | .error _ sql => sql

/-! ## Responses -/

/-- The statuses with which a response points to another address. -/
def IsRedirection (status : ℕ) : Prop :=
  status = 301 ∨ status = 302 ∨ status = 303 ∨ status = 307 ∨ status = 308

/-- A response sends on to another request: one for what is at the address it points to, or
the same request there. -/
inductive SendsOn (response : ServiceResponse) (r : SeenRequest) : SeenRequest → Prop where
  | fetch (a : Address) (pointer_eq : response.pointer = some (.address a))
      (hstatus : response.status = 301 ∨ response.status = 302 ∨ response.status = 303) :
      SendsOn response r ⟨"GET", a, none, ""⟩
  | again (a : Address) (pointer_eq : response.pointer = some (.address a))
      (hstatus : response.status = 307 ∨ response.status = 308) :
      SendsOn response r { r with address := a }

/-- A response is not to be followed. -/
def Stays (response : ServiceResponse) : Prop :=
  IsRedirection response.status → response.pointer = none

/-- A response holds an envelope: it reports no failure, and its body is the envelope. -/
structure HoldsEnvelope (response : ServiceResponse) (envelope : Envelope) : Prop where
  stays : Stays response
  status_ok : 200 ≤ response.status ∧ response.status < 400 ∨
    600 ≤ response.status ∧ response.status < 1000
  /-- Two statuses never bring a body along. -/
  delivered : response.status ≠ 204 ∧ response.status ≠ 304
  body_eq : ∃ body, response.body = some body ∧ Envelope.ofBytes? body = some envelope

/-- A response leads nowhere, for one of the reasons that there are. -/
inductive HoldsNothing (response : ServiceResponse) : Prop where
  /-- It is announced, but does not come. -/
  | unfinished (h : response.status < 200 ∨ 1000 ≤ response.status)
  /-- It reports a failure of the client or of the server. -/
  | failed (h : 400 ≤ response.status ∧ response.status < 600)
  /-- It points to a place that cannot be asked. -/
  | foreign (hstatus : IsRedirection response.status) (h : response.pointer = some .foreign)
  /-- It brings no body along. -/
  | bodyless (h : response.status = 204 ∨ response.status = 304)
  /-- Its body breaks off. -/
  | brokenOff (hstays : Stays response) (h : response.body = none)
  /-- Its body is no envelope. -/
  | unreadable (hstays : Stays response) (body : List UInt8) (hbody : response.body = some body)
      (h : Envelope.ofBytes? body = none)

section Responses

variable {response : ServiceResponse} {r r' : SeenRequest} {envelope : Envelope}

lemma isRedirection_iff {status : ℕ} :
    [301, 302, 303, 307, 308].contains status = true ↔ IsRedirection status := by
  simp [IsRedirection]

lemma sendsTo?_eq_none_iff : response.sendsTo? = none ↔ Stays response := by
  unfold ServiceResponse.sendsTo? Stays
  rw [← isRedirection_iff]
  split <;> simp_all

lemma sendsTo?_eq_some_iff {p : Pointer} :
    response.sendsTo? = some p ↔
      IsRedirection response.status ∧ response.pointer = some p := by
  unfold ServiceResponse.sendsTo?
  rw [← isRedirection_iff]
  split <;> simp_all

lemma sendsOn_iff :
    SendsOn response r r' ↔
      ∃ a, response.sendsTo? = some (.address a) ∧ response.next r a = r' := by
  constructor
  · rintro (⟨a, hpointer, hstatus⟩ | ⟨a, hpointer, hstatus⟩)
    · refine ⟨a, sendsTo?_eq_some_iff.mpr ⟨by unfold IsRedirection; omega, hpointer⟩, ?_⟩
      rw [ServiceResponse.next, if_neg (by omega)]
    · refine ⟨a, sendsTo?_eq_some_iff.mpr ⟨by unfold IsRedirection; omega, hpointer⟩, ?_⟩
      rw [ServiceResponse.next, if_pos hstatus]
  · rintro ⟨a, hsends, rfl⟩
    obtain ⟨hstatus, hpointer⟩ := sendsTo?_eq_some_iff.mp hsends
    unfold ServiceResponse.next
    split
    · rename_i hsame
      exact .again a hpointer hsame
    · rename_i hother
      exact .fetch a hpointer (by unfold IsRedirection at hstatus; omega)

/-- The bytes of a text are read as the text. -/
lemma ofBytes?_utf8 (text : String) :
    Envelope.ofBytes? (Text.utf8 text.toList) = Envelope.parse? text := by
  rw [Envelope.ofBytes?, Text.utf8?_utf8, Option.bind_some, String.ofList_toList]

lemma ofBytes?_nil : Envelope.ofBytes? [] = none := by
  rw [show [] = Text.utf8 "".toList from rfl, ofBytes?_utf8]
  cbv

lemma envelope?_eq_some_iff_holds (hstays : Stays response) :
    response.envelope? = some envelope ↔ HoldsEnvelope response envelope := by
  have hstatus : (isFinal response.status && !isErrorStatus response.status) = true ↔
      200 ≤ response.status ∧ response.status < 400 ∨
        600 ≤ response.status ∧ response.status < 1000 := by
    simp only [isFinal, isErrorStatus, Bool.and_eq_true, Bool.not_eq_true', decide_eq_true_eq,
      Bool.and_eq_false_iff, decide_eq_false_iff_not]
    omega
  have hbody : response.deliveredBody?.bind Envelope.ofBytes? = some envelope ↔
      (response.status ≠ 204 ∧ response.status ≠ 304) ∧
        ∃ body, response.body = some body ∧ Envelope.ofBytes? body = some envelope := by
    unfold ServiceResponse.deliveredBody?
    split
    · rename_i hbodyless
      have hdelivered : ¬ (response.status ≠ 204 ∧ response.status ≠ 304) := by omega
      simp [ofBytes?_nil, hdelivered]
    · rename_i hdelivered
      rw [not_or] at hdelivered
      simp [hdelivered, Option.bind_eq_some_iff]
  unfold ServiceResponse.envelope?
  split
  · rename_i hok
    rw [hbody]
    exact ⟨fun h => ⟨hstays, hstatus.mp hok, h.1, h.2⟩, fun h => ⟨h.delivered, h.body_eq⟩⟩
  · rename_i hnot
    simp only [reduceCtorEq, false_iff]
    exact fun h => hnot (hstatus.mpr h.status_ok)

lemma HoldsEnvelope.not_holdsNothing (h : HoldsEnvelope response envelope) :
    ¬ HoldsNothing response := by
  have hstatus := h.status_ok
  have hdelivered := h.delivered
  obtain ⟨body, hbody, hread⟩ := h.body_eq
  rintro (hunfinished | hfailed | ⟨hredirection, hforeign⟩ | hbodyless | ⟨-, hbroken⟩ |
    ⟨-, body', hbody', hunread⟩)
  · omega
  · omega
  · simp [h.stays hredirection] at hforeign
  · omega
  · simp [hbody] at hbroken
  · obtain rfl : body = body' := by simpa [hbody] using hbody'
    simp [hread] at hunread

/-- A response that is not to be followed holds an envelope, or there is a reason why not. -/
lemma holds_or_holdsNothing (hstays : Stays response) :
    (∃ envelope, HoldsEnvelope response envelope) ∨ HoldsNothing response := by
  by_cases hunfinished : response.status < 200 ∨ 1000 ≤ response.status
  · exact .inr (.unfinished hunfinished)
  by_cases hfailed : 400 ≤ response.status ∧ response.status < 600
  · exact .inr (.failed hfailed)
  by_cases hbodyless : response.status = 204 ∨ response.status = 304
  · exact .inr (.bodyless hbodyless)
  rcases hbody : response.body with _ | body
  · exact .inr (.brokenOff hstays hbody)
  rcases hread : Envelope.ofBytes? body with _ | envelope
  · exact .inr (.unreadable hstays body hbody hread)
  · exact .inl ⟨envelope, hstays, by omega, by omega, body, hbody, hread⟩

end Responses

/-! ## What the service does -/

/-- A request is made after the ones before it, beginning with the first one. -/
inductive Reached (service : Service) (first : SeenRequest) :
    List SeenRequest → SeenRequest → Prop where
  | first : Reached service first [] first
  | next {before : List SeenRequest} {r r' : SeenRequest} (response : ServiceResponse)
      (hreached : Reached service first before r)
      (response_eq : service before r = .responds response) (hsends : SendsOn response r r')
      (hleft : before.length < 10) : Reached service first (before ++ [r]) r'

/-- The service brings an envelope. -/
inductive Brings (service : Service) (first : SeenRequest) (envelope : Envelope) : Prop where
  | response (before : List SeenRequest) (r : SeenRequest) (response : ServiceResponse)
      (hreached : Reached service first before r)
      (response_eq : service before r = .responds response)
      (hholds : HoldsEnvelope response envelope)

/-- The service gives no answer, for one of the reasons that there are. -/
inductive GivesNothing (service : Service) (first : SeenRequest) : Prop where
  /-- Nobody listens. -/
  | down (before : List SeenRequest) (r : SeenRequest) (hreached : Reached service first before r)
      (h : service before r = .down)
  /-- The connection is closed without a response. -/
  | closes (before : List SeenRequest) (r : SeenRequest)
      (hreached : Reached service first before r) (h : service before r = .closes)
  | response (before : List SeenRequest) (r : SeenRequest) (response : ServiceResponse)
      (hreached : Reached service first before r)
      (response_eq : service before r = .responds response) (hnothing : HoldsNothing response)
  /-- The responses send on too often. -/
  | tooOften (before : List SeenRequest) (r r' : SeenRequest) (response : ServiceResponse)
      (hreached : Reached service first before r)
      (response_eq : service before r = .responds response) (hsends : SendsOn response r r')
      (hlength : before.length = 10)

section Following

variable {service : Service} {first r r' : SeenRequest} {before after : List SeenRequest}
  {response : ServiceResponse} {left : ℕ}

lemma follow_down (h : service before r = .down) : follow service left before r = ([], none) := by
  simp [follow.eq_def, h]

lemma follow_closes (h : service before r = .closes) :
    follow service left before r = ([r], none) := by
  simp [follow.eq_def, h]

lemma follow_stays (h : service before r = .responds response) (hstays : Stays response) :
    follow service left before r = ([r], response.envelope?) := by
  simp [follow.eq_def, h, sendsTo?_eq_none_iff.mpr hstays]

lemma follow_foreign (h : service before r = .responds response)
    (hsends : response.sendsTo? = some .foreign) :
    follow service left before r = ([r], none) := by
  simp [follow.eq_def, h, hsends]

lemma follow_exhausted (h : service before r = .responds response)
    (hsends : SendsOn response r r') : follow service 0 before r = ([r], none) := by
  obtain ⟨a, haddress, -⟩ := sendsOn_iff.mp hsends
  simp [follow.eq_def, h, haddress]

lemma follow_next (h : service before r = .responds response) (hsends : SendsOn response r r') :
    follow service (left + 1) before r =
      (r :: (follow service left (before ++ [r]) r').1,
        (follow service left (before ++ [r]) r').2) := by
  obtain ⟨a, haddress, rfl⟩ := sendsOn_iff.mp hsends
  rw [follow.eq_def]
  simp [h, haddress]

lemma follow_nothing (h : service before r = .responds response)
    (hnothing : HoldsNothing response) : (follow service left before r).2 = none := by
  by_cases hstays : Stays response
  · rw [follow_stays h hstays, Option.eq_none_iff_forall_ne_some]
    intro envelope henvelope
    exact ((envelope?_eq_some_iff_holds hstays).mp henvelope).not_holdsNothing hnothing
  · -- only one of the reasons goes with a response that points elsewhere
    have hredirection : IsRedirection response.status := by
      by_contra hnot
      exact hstays fun h => absurd h hnot
    have hforeign : response.pointer = some .foreign := by
      unfold IsRedirection at hredirection
      rcases hnothing with hunfinished | hfailed | ⟨-, hforeign⟩ | hbodyless | ⟨h, -⟩ | ⟨h, -⟩
      · omega
      · omega
      · exact hforeign
      · omega
      · exact absurd h hstays
      · exact absurd h hstays
    rw [follow_foreign h (sendsTo?_eq_some_iff.mpr ⟨hredirection, hforeign⟩)]

lemma Reached.length_le (h : Reached service first before r) : before.length ≤ 10 := by
  cases h with
  | first => simp
  | next response hreached response_eq hsends hleft =>
    rw [List.length_append, List.length_singleton]
    omega

/-- The relay comes by every request that is reached. -/
lemma follow_of_reached (h : Reached service first before r) :
    follow service 10 [] first =
      (before ++ (follow service (10 - before.length) before r).1,
        (follow service (10 - before.length) before r).2) := by
  induction h with
  | first => simp
  | @next before r r' response hreached response_eq hsends hleft ih =>
    obtain ⟨left, hlength⟩ : ∃ left, 10 - before.length = left + 1 := ⟨9 - before.length, by omega⟩
    have hrest : 10 - (before ++ [r]).length = left := by
      rw [List.length_append, List.length_singleton]
      omega
    rw [ih, hrest, hlength, follow_next response_eq hsends]
    simp

/-- Some request is the last one: no response to it leads to another one. -/
lemma exists_last (service : Service) (first : SeenRequest) :
    ∃ before r, Reached service first before r ∧
      ∀ response r', service before r = .responds response → SendsOn response r r' →
        before.length = 10 := by
  -- by induction on how many requests may follow
  have hfrom : ∀ left before r, Reached service first before r → before.length + left = 10 →
      ∃ before r, Reached service first before r ∧
        ∀ response r', service before r = .responds response → SendsOn response r r' →
          before.length = 10 := by
    intro left
    induction left with
    | zero => exact fun before r hreached hlength => ⟨before, r, hreached, fun _ _ _ _ => hlength⟩
    | succ left ih =>
      intro before r hreached hlength
      by_cases hnext : ∃ response r', service before r = .responds response ∧
          SendsOn response r r'
      · obtain ⟨response, r', response_eq, hsends⟩ := hnext
        refine ih (before ++ [r]) r' (.next response hreached response_eq hsends (by omega)) ?_
        rw [List.length_append, List.length_singleton]
        omega
      · exact ⟨before, r, hreached, fun response r' response_eq hsends =>
          absurd ⟨response, r', response_eq, hsends⟩ hnext⟩
  exact hfrom 10 [] first .first rfl

/-! ### The requests that are seen -/

lemma Reached.eq_first (h : Reached service first [] r) : r = first := by
  generalize hnil : ([] : List SeenRequest) = before at h
  cases h with
  | first => rfl
  | next response hreached response_eq hsends hleft => simp at hnil

/-- The requests before one that is reached are reached too. -/
lemma Reached.of_append {x : SeenRequest} (h : Reached service first before r)
    {front : List SeenRequest} (hsplit : before ++ [r] = front ++ x :: after) :
    Reached service first front x := by
  induction h generalizing after with
  | first =>
    obtain ⟨rfl, rfl, rfl⟩ : front = [] ∧ x = first ∧ after = [] := by
      cases front <;> simp_all
    exact .first
  | @next before r r' response hreached response_eq hsends hleft ih =>
    rcases List.eq_nil_or_concat after with rfl | ⟨after, last, rfl⟩
    · obtain ⟨rfl, hlast⟩ := List.append_inj' hsplit rfl
      obtain rfl : r' = x := by simpa using hlast
      exact .next response hreached response_eq hsends hleft
    · rw [List.concat_eq_append, ← List.cons_append, ← List.append_assoc] at hsplit
      exact ih (List.append_inj' hsplit rfl).1

/-- Every request that is seen is reached, and a reached one is seen if somebody listens. -/
lemma exists_seen (service : Service) (first : SeenRequest) :
    ∃ before r, Reached service first before r ∧
      ((follow service 10 [] first).1 = before ++ [r] ∨
        service before r = .down ∧ (follow service 10 [] first).1 = before) := by
  obtain ⟨before, r, hreached, hlast⟩ := exists_last service first
  refine ⟨before, r, hreached, ?_⟩
  rw [follow_of_reached hreached]
  rcases hmet : service before r with _ | _ | response
  · exact .inr ⟨rfl, by simp [follow_down hmet]⟩
  · exact .inl (by rw [follow_closes hmet])
  · left
    rcases hsends : response.sendsTo? with _ | p
    · rw [follow_stays hmet (sendsTo?_eq_none_iff.mp hsends)]
    · cases p with
      | foreign => rw [follow_foreign hmet hsends]
      | address a =>
        have hnext : SendsOn response r (response.next r a) := sendsOn_iff.mpr ⟨a, hsends, rfl⟩
        rw [hlast response _ hmet hnext, Nat.sub_self, follow_exhausted hmet hnext]

lemma reached_of_follow {x : SeenRequest} {front : List SeenRequest}
    (h : (follow service 10 [] first).1 = front ++ x :: after) :
    Reached service first front x := by
  obtain ⟨before, r, hreached, hseen | ⟨-, hseen⟩⟩ := exists_seen service first
  · exact hreached.of_append (hseen.symm.trans h)
  · have hsplit : before ++ [r] = front ++ x :: (after ++ [r]) := by
      rw [← hseen, h]
      simp
    exact hreached.of_append hsplit

lemma length_follow_le : (follow service 10 [] first).1.length ≤ 11 := by
  obtain ⟨before, r, hreached, hseen | ⟨-, hseen⟩⟩ := exists_seen service first <;>
  · have := hreached.length_le
    simp only [hseen, List.length_append, List.length_singleton]
    omega

lemma head?_follow (hlistens : service [] first ≠ .down) :
    (follow service 10 [] first).1.head? = some first := by
  rcases hseen : (follow service 10 [] first).1 with _ | ⟨x, after⟩
  · obtain ⟨before, r, hreached, hall | ⟨hdown, hall⟩⟩ := exists_seen service first
    · simp [hall] at hseen
    · obtain rfl : before = [] := hall.symm.trans hseen
      exact absurd (hreached.eq_first ▸ hdown) hlistens
  · have hreached : Reached service first [] x := reached_of_follow hseen
    obtain rfl := hreached.eq_first
    rfl

/-- If no response points anywhere, the service is asked at most once. -/
lemma length_follow_le_one
    (h : ∀ before r response, service before r = .responds response → response.pointer = none) :
    (follow service 10 [] first).1.length ≤ 1 := by
  have hnever {before : List SeenRequest} {r r' : SeenRequest} {response : ServiceResponse}
      (hmet : service before r = .responds response) : ¬ SendsOn response r r' := by
    have hpointer := h before r response hmet
    rintro (⟨a, ha, -⟩ | ⟨a, ha, -⟩) <;> simp [hpointer] at ha
  rcases hseen : (follow service 10 [] first).1 with _ | ⟨x, _ | ⟨y, after⟩⟩
  · simp
  · simp
  · have hreached : Reached service first [x] y := reached_of_follow hseen
    generalize hbefore : [x] = before at hreached
    cases hreached with
    | first => simp at hbefore
    | next response hreached response_eq hsends hleft => exact absurd hsends (hnever response_eq)

/-! ### The envelope -/

lemma follow_of_brings {envelope : Envelope} (h : Brings service first envelope) :
    (follow service 10 [] first).2 = some envelope := by
  obtain ⟨before, r, response, hreached, response_eq, hholds⟩ := h
  rw [follow_of_reached hreached, follow_stays response_eq hholds.stays,
    (envelope?_eq_some_iff_holds hholds.stays).mpr hholds]

lemma follow_of_nothing (h : GivesNothing service first) :
    (follow service 10 [] first).2 = none := by
  cases h with
  | down before r hreached h => rw [follow_of_reached hreached, follow_down h]
  | closes before r hreached h => rw [follow_of_reached hreached, follow_closes h]
  | response before r response hreached response_eq hnothing =>
    rw [follow_of_reached hreached, follow_nothing response_eq hnothing]
  | tooOften before r r' response hreached response_eq hsends hlength =>
    rw [follow_of_reached hreached, hlength, Nat.sub_self, follow_exhausted response_eq hsends]

/-- There is an answer, or one of the reasons why there is none. -/
lemma brings_or_givesNothing (service : Service) (first : SeenRequest) :
    (∃ envelope, Brings service first envelope) ∨ GivesNothing service first := by
  obtain ⟨before, r, hreached, hlast⟩ := exists_last service first
  rcases hmet : service before r with _ | _ | response
  · exact .inr (.down before r hreached hmet)
  · exact .inr (.closes before r hreached hmet)
  · by_cases hstays : Stays response
    · rcases holds_or_holdsNothing hstays with ⟨envelope, hholds⟩ | hnothing
      · exact .inl ⟨envelope, before, r, response, hreached, hmet, hholds⟩
      · exact .inr (.response before r response hreached hmet hnothing)
    · obtain ⟨p, hsends⟩ := Option.ne_none_iff_exists'.mp (mt sendsTo?_eq_none_iff.mp hstays)
      cases p with
      | foreign =>
        obtain ⟨hstatus, hpointer⟩ := sendsTo?_eq_some_iff.mp hsends
        exact .inr (.response before r response hreached hmet (.foreign hstatus hpointer))
      | address a =>
        have hnext : SendsOn response r (response.next r a) := sendsOn_iff.mpr ⟨a, hsends, rfl⟩
        exact .inr (.tooOften before r _ response hreached hmet hnext
          (hlast response _ hmet hnext))

/-- Never is there both. -/
lemma givesNothing_iff : GivesNothing service first ↔ ∀ e, ¬ Brings service first e := by
  constructor
  · intro hnothing envelope hbrings
    have h := (follow_of_nothing hnothing).symm.trans (follow_of_brings hbrings)
    simp at h
  · intro h
    rcases brings_or_givesNothing service first with ⟨envelope, hbrings⟩ | hnothing
    · exact absurd hbrings (h envelope)
    · exact hnothing

end Following

/-! ## A service that does not change its mind -/

/-- The service that responds to every request in the same way and points nowhere. -/
def constantly (status : ℕ) (body : Option (List UInt8)) : Service :=
  fun _ _ => .responds ⟨status, none, body⟩

section Constantly

variable {status : ℕ} {body : Option (List UInt8)} {first : SeenRequest} {envelope : Envelope}

lemma brings_constantly (h : HoldsEnvelope ⟨status, none, body⟩ envelope) :
    Brings (constantly status body) first envelope := .response [] first _ .first rfl h

lemma givesNothing_constantly (h : HoldsNothing ⟨status, none, body⟩) :
    GivesNothing (constantly status body) first := .response [] first _ .first rfl h

/-- It sees the first request and no other one. -/
lemma follow_constantly : (follow (constantly status body) 10 [] first).1 = [first] := by
  have hmet : constantly status body [] first = .responds ⟨status, none, body⟩ := rfl
  have hstays : Stays ⟨status, none, body⟩ := fun _ => rfl
  rw [follow_stays hmet hstays]

end Constantly

/-! ## What is sent -/

/-- A request asks the question at an address: its body is an object whose only member is
the question. -/
structure Poses (question : String) (a : Address) (r : SeenRequest) : Prop where
  method_eq : r.method = "POST"
  address_eq : r.address = a
  contentType_eq : r.contentType = some "application/json"
  written : Json.written? r.body = some (.object [("query", .string question)])
  denoted : Json.parse? r.body = some (.object [("query", .string question)])

/-- A request asks for what is at its address, and brings nothing along. -/
structure Fetches (r : SeenRequest) : Prop where
  method_eq : r.method = "GET"
  contentType_eq : r.contentType = none
  body_eq : r.body = ""

lemma poses_questionRequest (a : Address) (question : String) :
    Poses question a (questionRequest a question) where
  method_eq := rfl
  address_eq := rfl
  contentType_eq := rfl
  written := Json.written?_textObject (by decide) question
  denoted := Json.parse?_textObject (by decide) question

section Asking

variable {address : Option Address} {a : Address} {service : Service} {envelope : Envelope}
  {question : String}

/-- A request that is made asks the question, or asks for nothing but what is there. -/
lemma Reached.poses_or_fetches {before : List SeenRequest} {first r : SeenRequest}
    (h : Reached service first before r) (hfirst : Poses question a first) :
    (∃ a, Poses question a r) ∨ Fetches r := by
  induction h with
  | first => exact .inl ⟨a, hfirst⟩
  | next response hreached response_eq hsends hleft ih =>
    rcases hsends with ⟨b, -, -⟩ | ⟨b, -, -⟩
    · exact .inr ⟨rfl, rfl, rfl⟩
    · rcases ih with ⟨c, hposes⟩ | hfetches
      · exact .inl ⟨b, hposes.method_eq, rfl, hposes.contentType_eq, hposes.written,
          hposes.denoted⟩
      · exact .inr ⟨hfetches.method_eq, hfetches.contentType_eq, hfetches.body_eq⟩

/-! ## What is shown -/

lemma ask_fst : (ask address service question).1 = (relay address service question).1 := by
  rcases hrelay : relay address service question with ⟨seen, _ | envelope⟩ <;>
    simp [ask, hrelay]

/-- The reply repeats the question. -/
lemma ask_question : (ask address service question).2.question = question := by
  rcases hrelay : relay address service question with ⟨seen, _ | envelope⟩
  · simp [ask, hrelay, Reply.unavailable]
  · cases envelope <;> simp [ask, hrelay, Reply.ofEnvelope]

lemma ask_of_brings (h : Brings service (questionRequest a question) envelope) :
    (ask (some a) service question).2 = .ofEnvelope question envelope := by
  have hrelay : (relay (some a) service question).2 = some envelope := follow_of_brings h
  simp [ask, hrelay]

lemma ask_of_nothing (h : GivesNothing service (questionRequest a question)) :
    (ask (some a) service question).2 = .unavailable question := by
  have hrelay : (relay (some a) service question).2 = none := follow_of_nothing h
  simp [ask, hrelay]

end Asking

end RevenueDesk.Chat

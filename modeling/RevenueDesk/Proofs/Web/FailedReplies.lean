/-
# Replies that report no success

A reply of the question service with a status outside 200 to 299 reports no success.  If it points
nowhere, its body is left alone if it is never delivered, or if the status reports a failure of the
client or of the server (`BodyUnread`).  For the other statuses, from 300 to 399 and from 600 to
999, a body that is an envelope is passed on as if the service had succeeded.

`answer_unsuccessful` says for every status which of the two it is.
-/
import Mathlib
import RevenueDesk.Proofs.Web.QuestionExchange

namespace RevenueDesk.Web

open Chat (Address Brings Envelope GivesNothing HoldsEnvelope HoldsNothing Stays constantly)

/-- The status reports no success. -/
def Unsuccessful (status : ℕ) : Prop := status < 200 ∨ 300 ≤ status

/-- A body that comes with this status is not looked into. -/
inductive BodyUnread (address : Option Address) (status : ℕ) : Prop where
  /-- There is no place to send a question to. -/
  | noAddress (h : address = none)
  /-- The response is only announced. -/
  | unfinished (h : status < 200 ∨ 1000 ≤ status)
  /-- The response reports a failure of the client or of the server. -/
  | failed (h : 400 ≤ status ∧ status < 600)
  /-- No body is delivered. -/
  | notModified (h : status = 304)

/-- The body is no envelope: it breaks off, or its bytes are none. -/
def NoEnvelope (body : Option (List UInt8)) : Prop :=
  ∀ bytes, body = some bytes → Envelope.ofBytes? bytes = none

/-- What becomes of the replies that come with one status, by their bodies. -/
structure UnsuccessfulReplies (address : Option Address) (question : String) (status : ℕ)
    (answerTo : Option (List UInt8) → Exchange) : Prop where
  status_eq : ∀ body, (answerTo body).response.status = 200
  /-- What is not looked into, or is no envelope, gives the apology and nothing else. -/
  apology : ∀ body, BodyUnread address status ∨ NoEnvelope body →
    (answerTo body).response.content = .json (told question apologyAnswer none)
  /-- Any other body is passed on. -/
  relayed : ¬ BodyUnread address status → ∀ bytes envelope,
    Envelope.ofBytes? bytes = some envelope → ∃ answer, Becomes envelope answer ∧
      (answerTo (some bytes)).response.content = .json (told question answer envelope.sql?)
  /-- So the body makes no difference exactly if it is not looked into. -/
  same_iff : (∀ body body', answerTo body = answerTo body') ↔ BodyUnread address status

/-! ## What the responses hold -/

section Responses

variable {a : Address} {status : ℕ} {body : Option (List UInt8)}

lemma stays_of_pointer_eq_none : Stays ⟨status, none, body⟩ := fun _ => rfl

lemma holdsNothing_of_apology (h : BodyUnread (some a) status ∨ NoEnvelope body) :
    HoldsNothing ⟨status, none, body⟩ := by
  rcases h with (haddress | hunfinished | hfailed | hnotModified) | hbody
  · simp at haddress
  · exact .unfinished hunfinished
  · exact .failed hfailed
  · exact .bodyless (.inr hnotModified)
  · rcases body with _ | bytes
    · exact .brokenOff stays_of_pointer_eq_none rfl
    · exact .unreadable stays_of_pointer_eq_none bytes rfl (hbody bytes rfl)

lemma holds_of_ofBytes? {bytes : List UInt8} {envelope : Envelope} (hstatus : Unsuccessful status)
    (hread : ¬ BodyUnread (some a) status) (hbody : Envelope.ofBytes? bytes = some envelope) :
    HoldsEnvelope ⟨status, none, some bytes⟩ envelope := by
  have hfinal := mt BodyUnread.unfinished hread
  have hfailed := mt BodyUnread.failed hread
  have hnotModified := mt BodyUnread.notModified hread
  refine ⟨stays_of_pointer_eq_none, ?_, ?_, bytes, rfl, hbody⟩ <;>
  · dsimp only
    rcases hstatus with h | h <;> omega

end Responses

/-! ## What the client is told -/

/-- An envelope with a single value. -/
def scalarBody : String := "\x7b\"kind\":\"scalar\",\"value\":7\x7d"

lemma ofBytes?_scalarBody :
    Envelope.ofBytes? (Text.utf8 scalarBody.toList) = some (.scalar (.ofInt 7) none none) := by
  rw [Chat.ofBytes?_utf8]
  cbv

lemma Becomes.ne_apology {value answer : Json} {label sql : Option String}
    (h : Becomes (.scalar value label sql) answer) : answer ≠ apologyAnswer := by
  cases h
  simp [apologyAnswer]

/-- The answer can be read off from what the client is told. -/
lemma told_inj {question question' : String} {answer answer' : Json} {sql sql' : Option String}
    (h : told question answer sql = told question' answer' sql') : answer = answer' := by
  simp only [told, Json.object.injEq, List.cons.injEq, Prod.mk.injEq, true_and] at h
  exact h.2.1

section Answers

variable {r : Request} {question : String} {status : ℕ}

/-- A body that is not looked into, or is no envelope, gives the apology. -/
lemma content_of_apology (desk : Desk) (hasks : Asks r question)
    (hanswerable : ¬ Unanswerable question) {body : Option (List UInt8)}
    (h : BodyUnread desk.questionAddress? status ∨ NoEnvelope body) :
    ((desk.asking (constantly status body)).answer r).response.content =
      .json (told question apologyAnswer none) := by
  have hexchange := answer_exchange (desk.asking (constantly status body)) hasks
  have haddress : (desk.asking (constantly status body)).questionAddress? =
      desk.questionAddress? := rfl
  rcases ha : desk.questionAddress? with _ | a
  · exact (hexchange.unasked hanswerable (haddress.trans ha)).2
  · obtain ⟨first, -, hfirst⟩ := hexchange.conversed hanswerable a (haddress.trans ha)
    exact hfirst.unavailable (Chat.givesNothing_constantly (holdsNothing_of_apology (ha ▸ h)))

/-- Any other body is passed on. -/
lemma content_of_relayed (desk : Desk) (hasks : Asks r question)
    (hanswerable : ¬ Unanswerable question) (hstatus : Unsuccessful status)
    (hread : ¬ BodyUnread desk.questionAddress? status) {bytes : List UInt8} {envelope : Envelope}
    (hbody : Envelope.ofBytes? bytes = some envelope) :
    ∃ answer, Becomes envelope answer ∧
      ((desk.asking (constantly status (some bytes))).answer r).response.content =
        .json (told question answer envelope.sql?) := by
  obtain ⟨a, ha⟩ := Option.ne_none_iff_exists'.mp fun h => hread (.noAddress h)
  have hexchange := answer_exchange (desk.asking (constantly status (some bytes))) hasks
  obtain ⟨first, -, hfirst⟩ := hexchange.conversed hanswerable a ha
  exact hfirst.relayed envelope
    (Chat.brings_constantly (holds_of_ofBytes? hstatus (ha ▸ hread) hbody))

/-- A body that is not looked into makes no difference. -/
lemma answer_eq_of_unread (desk : Desk) (hasks : Asks r question)
    (hanswerable : ¬ Unanswerable question) (h : BodyUnread desk.questionAddress? status)
    (body body' : Option (List UInt8)) :
    (desk.asking (constantly status body)).answer r =
      (desk.asking (constantly status body')).answer r := by
  have haddress (body : Option (List UInt8)) :
      (desk.asking (constantly status body)).questionAddress? = desk.questionAddress? := rfl
  have hservice (body : Option (List UInt8)) :
      (desk.asking (constantly status body)).questions = constantly status body := rfl
  rw [answer_of_asks _ hasks, answer_of_asks _ hasks, askQuestion_of_answerable _ hanswerable,
    askQuestion_of_answerable _ hanswerable, haddress, haddress, hservice, hservice]
  rcases ha : desk.questionAddress? with _ | a
  · rfl
  · have hnothing (body : Option (List UInt8)) : GivesNothing (constantly status body)
        (Chat.questionRequest a question) :=
      Chat.givesNothing_constantly (holdsNothing_of_apology (.inl (ha ▸ h)))
    have hseen (body : Option (List UInt8)) :
        (Chat.relay (some a) (constantly status body) question).1 =
          [Chat.questionRequest a question] := Chat.follow_constantly
    rw [Chat.ask_of_nothing (hnothing body), Chat.ask_of_nothing (hnothing body'), hseen, hseen]

/-- A reply that reports no success is kept from the client exactly if its body is not looked into;
then the client gets the same apology for every body. -/
theorem answer_unsuccessful (desk : Desk) (hasks : Asks r question)
    (hanswerable : ¬ Unanswerable question) (hstatus : Unsuccessful status) :
    UnsuccessfulReplies desk.questionAddress? question status fun body =>
      (desk.asking (constantly status body)).answer r where
  status_eq := fun body =>
    ((answer_exchange (desk.asking (constantly status body)) hasks).answered hanswerable).1
  apology := fun _ h => content_of_apology desk hasks hanswerable h
  relayed := fun hread _ _ hbody =>
    content_of_relayed desk hasks hanswerable hstatus hread hbody
  same_iff := by
    refine ⟨fun hsame => ?_, answer_eq_of_unread desk hasks hanswerable⟩
    by_contra hread
    -- a body that is an envelope and one that breaks off are told apart
    obtain ⟨answer, hanswer, hcontent⟩ :=
      content_of_relayed desk hasks hanswerable hstatus hread ofBytes?_scalarBody
    have hbroken : NoEnvelope none := fun bytes h => by simp at h
    rw [hsame _ none, content_of_apology desk hasks hanswerable (.inr hbroken)] at hcontent
    exact hanswer.ne_apology (told_inj (Content.json.inj hcontent)).symm

theorem answer_unsuccessful_movedPermanently :
    Asks (askingRequest "How many?") "How many?" ∧ ¬ Unanswerable "How many?" ∧
      Unsuccessful 301 ∧
      UnsuccessfulReplies failingDesk.questionAddress? "How many?" 301 fun body =>
        (failingDesk.asking (constantly 301 body)).answer (askingRequest "How many?") := by
  have hasks : Asks (askingRequest "How many?") "How many?" := asks_askingRequest (by decide)
  have hanswerable : ¬ Unanswerable "How many?" := complaints_eq_nil_iff.mp (by decide)
  have hstatus : Unsuccessful 301 := .inr (by omega)
  exact ⟨hasks, hanswerable, hstatus, answer_unsuccessful failingDesk hasks hanswerable hstatus⟩

/-- An envelope is passed on that comes with a status of redirection. -/
theorem answer_multipleChoices :
    Asks (askingRequest "How many clients?") "How many clients?" ∧
      ¬ Unanswerable "How many clients?" ∧ Unsuccessful 300 ∧
      ((failingDesk.asking (constantly 300 (some (Text.utf8 scalarBody.toList)))).answer
        (askingRequest "How many clients?")).response.content ≠
        .json (told "How many clients?" apologyAnswer none) := by
  have hasks : Asks (askingRequest "How many clients?") "How many clients?" :=
    asks_askingRequest (by decide)
  have hanswerable : ¬ Unanswerable "How many clients?" := complaints_eq_nil_iff.mp (by decide)
  have hstatus : Unsuccessful 300 := .inr (by omega)
  have hread : ¬ BodyUnread failingDesk.questionAddress? 300 := by
    rw [questionAddress?_failingDesk]
    rintro (h | h | h | h)
    · simp at h
    · omega
    · omega
    · omega
  refine ⟨hasks, hanswerable, hstatus, fun hcontent => ?_⟩
  obtain ⟨answer, hanswer, hrelayed⟩ :=
    content_of_relayed failingDesk hasks hanswerable hstatus hread ofBytes?_scalarBody
  rw [hcontent] at hrelayed
  exact hanswer.ne_apology (told_inj (Content.json.inj hrelayed)).symm

end Answers

end RevenueDesk.Web

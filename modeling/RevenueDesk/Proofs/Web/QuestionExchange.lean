/-
# What becomes of a question

A question that is blank or too long is turned down before anything is sent.  Any other
question is answered with status 200, whatever the question service does: the question comes
back as it was asked, with the answer that the service has brought or with an apology.

* `Conversation` says what happens between the first request and the answer: which requests are
  made, and what the client is told for each of the things that the service can do;
* `QuestionExchange` says what the exchange as a whole looks like, and which bases of the address
  of the question service lead to a conversation;
* `answer_question`: every request that asks a question is answered in this way, and the text
  of an error that the service reports does not get into the answer.
-/
import Mathlib
import RevenueDesk.Proofs.Chat.PlainBase
import RevenueDesk.Proofs.Chat.Relaying
import RevenueDesk.Proofs.Web.Answering
import RevenueDesk.Proofs.Web.QuestionBody

namespace RevenueDesk.Web

open Chat (Address Brings Envelope Fetches GivesNothing PlainBase Poses Reached SeenRequest)

/-! ## Questions -/

/-- The request asks a question: it is sent to the place for questions, says that its body
is JSON, is not too large, and its body holds the question. -/
structure Asks (r : Request) (question : String) : Prop where
  method_eq : r.method = "POST"
  route_eq : r.route = "/api/assistant/ask"
  says_json : saysJson r = true
  size_le : r.body.length ≤ largestBody
  body_eq : QuestionPayload.ofBody r.body = .ok ⟨question⟩

/-- The request in which a client asks a question. -/
def askingRequest (question : String) : Request where
  method := "POST"
  path := "/api/assistant/ask"
  headers := [("Content-Type", "application/json")]
  body := questionBytes question

-- Neither the route nor the content type depends on the question.
lemma route_askingRequest (question : String) :
    (askingRequest question).route = "/api/assistant/ask" := by
  have hroute : (askingRequest "").route = "/api/assistant/ask" := by decide +kernel
  exact hroute

lemma saysJson_askingRequest (question : String) : saysJson (askingRequest question) = true := by
  have hsays : saysJson (askingRequest "") = true := by decide +kernel
  exact hsays

/-- Any question can be asked, up to a length far beyond that of the longest one answered. -/
theorem asks_askingRequest {question : String} (h : question.length ≤ 87000) :
    Asks (askingRequest question) question where
  method_eq := rfl
  route_eq := route_askingRequest question
  says_json := saysJson_askingRequest question
  size_le := by
    have hlength := length_questionBytes_le question
    simp only [askingRequest, largestBody]
    omega
  body_eq := ofBody_questionBytes question

/-- There is nothing in the question, or too much. -/
inductive Unanswerable (question : String) : Prop where
  | blank (h : ∀ c ∈ question.toList, Text.isBlank c = true)
  | tooLong (h : 1000 < question.length)

lemma complaints_eq_nil_iff {question : String} :
    (QuestionPayload.mk question).complaints = [] ↔ ¬ Unanswerable question := by
  have hblank : Text.isAllBlank question = true ↔
      ∀ c ∈ question.toList, Text.isBlank c = true := by
    simp [Text.isAllBlank]
  constructor
  · intro h hun
    cases hun with
    | blank hall => simp [QuestionPayload.complaints, hblank.mpr hall] at h
    | tooLong hlong =>
      have hnot : ¬ question.length ≤ QuestionPayload.longest := by
        simpa [QuestionPayload.longest] using hlong
      simp [QuestionPayload.complaints, hnot] at h
  · intro h
    have hshort : question.length ≤ QuestionPayload.longest := by
      by_contra hlong
      exact h (.tooLong (by simpa [QuestionPayload.longest] using hlong))
    have hfilled : ¬ Text.isAllBlank question = true := fun hall => h (.blank (hblank.mp hall))
    simp [QuestionPayload.complaints, hshort, hfilled]

/-! ## Answers -/

/-- The answer when there is none. -/
def apologyAnswer : Json :=
  .object
    [("kind", .string "unavailable"),
      ("message", .string
        "Sorry, I couldn't answer that right now. Please try again in a moment.")]

/-- The answer that an envelope becomes. -/
inductive Becomes : Envelope → Json → Prop where
  | scalar (value : Json) (label sql : Option String) :
      Becomes (.scalar value label sql) (.object
        [("kind", .string "scalar"), ("value", value),
          ("formatted", .string (Chat.formatScalar value)),
          ("label", .ofOption .string label)])
  | table (columns : List String) (rows : List (List Json)) (sql : Option String) :
      Becomes (.table columns rows sql) (.object
        [("kind", .string "table"), ("columns", .array (columns.map .string)),
          ("rows", .array (rows.map .array))])
  | message (message : String) (sql : Option String) :
      Becomes (.empty (some message) sql) (.object
        [("kind", .string "empty"), ("message", .string message)])
  | noMessage (sql : Option String) :
      Becomes (.empty none sql) (.object
        [("kind", .string "empty"),
          ("message", .string "No records found matching your query.")])
  | error (error : String) (sql : Option String) :
      Becomes (.error error sql) apologyAnswer

/-- What the client is told: the question, the answer, and the query that the service made
of the question. -/
def told (question : String) (answer : Json) (sql : Option String) : Json :=
  .object
    [("question", .string question), ("answer", answer), ("sql", .ofOption .string sql)]

lemma toJson_ofEnvelope (question : String) (envelope : Envelope) :
    ∃ answer, Becomes envelope answer ∧
      (Chat.Reply.ofEnvelope question envelope).toJson =
        told question answer envelope.sql? := by
  cases envelope with
  | scalar value label sql => exact ⟨_, .scalar value label sql, rfl⟩
  | table columns rows sql => exact ⟨_, .table columns rows sql, rfl⟩
  | empty message sql =>
    cases message with
    | none => exact ⟨_, .noMessage sql, rfl⟩
    | some message => exact ⟨_, .message message sql, rfl⟩
  | error error sql => exact ⟨_, .error error sql, rfl⟩

lemma toJson_eq_told (reply : Chat.Reply) :
    reply.toJson = told reply.question reply.answer.toJson reply.sql := rfl

lemma toJson_unavailable (question : String) :
    (Chat.Reply.unavailable question).toJson = told question apologyAnswer none := rfl

/-! ## The exchange -/

/-- What becomes of a question whose first request is `first`. -/
structure Conversation (service : Chat.Service) (question : String) (first : SeenRequest)
    (e : Exchange) : Prop where
  /-- The first request is made, if somebody listens. -/
  first_seen : service [] first ≠ .down → e.asked.head? = some first
  /-- Each further one follows a response to the one before it. -/
  reached : ∀ before r after, e.asked = before ++ r :: after → Reached service first before r
  asked_le : e.asked.length ≤ 11
  /-- So there is no other one if no response points anywhere. -/
  asked_once : (∀ before r response, service before r = .responds response →
    response.pointer = none) → e.asked.length ≤ 1
  /-- What is read in a request is the question as it stands. -/
  posed : ∀ r ∈ e.asked, (∃ a, Poses question a r) ∨ Fetches r
  /-- There is an answer, or a reason why there is none. -/
  settled : (∃ envelope, Brings service first envelope) ∨ GivesNothing service first
  /-- If there is none, it does not matter why. -/
  unavailable : GivesNothing service first →
    e.response.content = .json (told question apologyAnswer none)
  /-- The envelope that the service brings is passed on by its kind. -/
  relayed : ∀ envelope, Brings service first envelope → ∃ answer, Becomes envelope answer ∧
    e.response.content = .json (told question answer envelope.sql?)

/-- What becomes of a request that asks a question. -/
structure QuestionExchange (desk : Desk) (question : String) (e : Exchange) : Prop where
  /-- The database is not asked. -/
  statements_eq : e.statements = []
  /-- A question that cannot be answered is not passed on. -/
  refused : Unanswerable question → e.response.status = 400 ∧ e.asked = []
  /-- Every other question is answered, and the answer repeats it. -/
  answered : ¬ Unanswerable question → e.response.status = 200 ∧
    ∃ answer sql, e.response.content = .json (told question answer sql)
  /-- It is asked at the address of the question service. -/
  conversed : ¬ Unanswerable question → ∀ a, desk.questionAddress? = some a →
    ∃ first, Poses question a first ∧ Conversation desk.questions question first e
  /-- Without an address it is asked nowhere. -/
  unasked : ¬ Unanswerable question → desk.questionAddress? = none →
    e.asked = [] ∧ e.response.content = .json (told question apologyAnswer none)
  /-- A base as one usually spells it gives the address that it spells. -/
  address_of_plain : ∀ b : PlainBase, b.text.length ≤ 65000 → desk.questionBase = b.text →
    desk.questionAddress? = some b.address
  /-- A base without one of the two schemes gives none. -/
  scheme_of_address : ∀ a, desk.questionAddress? = some a → ∃ front back,
    desk.questionBase.toList = front ++ ':' :: back ∧
      (front.filter (' ' < ·)).map Char.toLower = (if a.secure then "https" else "http").toList

section Asking

variable (desk : Desk) {question : String}

lemma askQuestion_of_unanswerable (h : Unanswerable question) :
    ∃ details, desk.askQuestion ⟨question⟩ =
      .ofResponse (Failure.invalidFields details).response := by
  rcases hfields : (QuestionPayload.mk question).complaints with _ | ⟨c, cs⟩
  · exact absurd h (complaints_eq_nil_iff.mp hfields)
  · exact ⟨c :: cs, by simp [Desk.askQuestion, hfields]⟩

lemma askQuestion_of_answerable (h : ¬ Unanswerable question) :
    desk.askQuestion ⟨question⟩ =
      { response := .json 200
          (Chat.ask desk.questionAddress? desk.questions question).2.toJson
        statements := []
        asked := (Chat.relay desk.questionAddress? desk.questions question).1 } := by
  simp [Desk.askQuestion, complaints_eq_nil_iff.mpr h, Chat.ask_fst]

/-- At an address, the question is what the first request asks. -/
lemma askQuestion_conversation {a : Address} (h : ¬ Unanswerable question)
    (ha : desk.questionAddress? = some a) :
    Conversation desk.questions question (Chat.questionRequest a question)
      (desk.askQuestion ⟨question⟩) := by
  rw [askQuestion_of_answerable desk h, ha]
  exact
    { first_seen := Chat.head?_follow
      reached := fun before r after hseen => Chat.reached_of_follow hseen
      asked_le := Chat.length_follow_le
      asked_once := Chat.length_follow_le_one
      posed := by
        intro r hr
        obtain ⟨before, after, hseen⟩ := List.append_of_mem hr
        exact (Chat.reached_of_follow hseen).poses_or_fetches
          (Chat.poses_questionRequest a question)
      settled := Chat.brings_or_givesNothing _ _
      unavailable := by
        intro hnothing
        simp only [Chat.ask_of_nothing hnothing, toJson_unavailable, Response.json]
      relayed := by
        intro envelope hbrings
        obtain ⟨answer, hanswer, htold⟩ := toJson_ofEnvelope question envelope
        refine ⟨answer, hanswer, ?_⟩
        simp only [Chat.ask_of_brings hbrings, htold, Response.json] }

/-- Asking a question is an exchange with the question service alone. -/
lemma askQuestion_exchange (question : String) :
    QuestionExchange desk question (desk.askQuestion ⟨question⟩) where
  statements_eq := by
    by_cases h : Unanswerable question
    · obtain ⟨details, hask⟩ := askQuestion_of_unanswerable desk h
      rw [hask]
      rfl
    · rw [askQuestion_of_answerable desk h]
  refused := by
    intro h
    obtain ⟨details, hask⟩ := askQuestion_of_unanswerable desk h
    rw [hask]
    exact ⟨rfl, rfl⟩
  answered := by
    intro h
    rw [askQuestion_of_answerable desk h]
    obtain ⟨reply, hreply⟩ : ∃ reply,
        (Chat.ask desk.questionAddress? desk.questions question).2 = reply := ⟨_, rfl⟩
    have hquestion : reply.question = question := hreply ▸ Chat.ask_question
    refine ⟨rfl, reply.answer.toJson, reply.sql, ?_⟩
    simp only [hreply, toJson_eq_told, hquestion, Response.json]
  conversed := fun h a ha =>
    ⟨_, Chat.poses_questionRequest a question, askQuestion_conversation desk h ha⟩
  unasked := by
    intro h ha
    rw [askQuestion_of_answerable desk h, ha]
    exact ⟨rfl, rfl⟩
  address_of_plain := by
    intro b hlength hbase
    rw [Desk.questionAddress?, hbase]
    exact b.ofText?_endpoint desk.nameRules hlength
  scheme_of_address := fun _ ha => Chat.exists_scheme ha

/-- The desk with another question service behind it. -/
def Desk.asking (desk : Desk) (service : Chat.Service) : Desk := { desk with questions := service }

/-- A request that asks a question is answered by asking it. -/
lemma answer_of_asks {r : Request} (h : Asks r question) :
    desk.answer r = (desk.askQuestion ⟨question⟩).shared := by
  have hroute : Route.of? r.route =
      some (.post fun desk body => (QuestionPayload.ofBody body).map desk.askQuestion) := by
    rw [h.route_eq]
    rfl
  have hbody : (QuestionPayload.ofBody r.body).map desk.askQuestion =
      .ok (desk.askQuestion ⟨question⟩) := by
    rw [h.body_eq]
    rfl
  exact desk.answer_post hroute h.method_eq h.says_json h.size_le hbody

/-- Letting other origins read the answer changes neither its status nor its content. -/
lemma QuestionExchange.shared {desk : Desk} {e : Exchange} (h : QuestionExchange desk question e) :
    QuestionExchange desk question e.shared where
  statements_eq := h.statements_eq
  refused := h.refused
  answered := h.answered
  conversed := by
    intro hanswerable a ha
    obtain ⟨first, hposes, hfirst⟩ := h.conversed hanswerable a ha
    exact ⟨first, hposes, hfirst.first_seen, hfirst.reached, hfirst.asked_le, hfirst.asked_once,
      hfirst.posed, hfirst.settled, hfirst.unavailable, hfirst.relayed⟩
  unasked := h.unasked
  address_of_plain := h.address_of_plain
  scheme_of_address := h.scheme_of_address

lemma answer_exchange {r : Request} (h : Asks r question) :
    QuestionExchange desk question (desk.answer r) := by
  rw [answer_of_asks desk h]
  exact (askQuestion_exchange desk question).shared

/-- Two services that differ in the text of an error make no difference to the response. -/
lemma askQuestion_of_error {a : Address} {service service' : Chat.Service} {error error' : String}
    {sql : Option String} (ha : desk.questionAddress? = some a)
    (h : Brings service (Chat.questionRequest a question) (.error error sql))
    (h' : Brings service' (Chat.questionRequest a question) (.error error' sql)) :
    ((desk.asking service).askQuestion ⟨question⟩).response =
      ((desk.asking service').askQuestion ⟨question⟩).response := by
  have haddress (service : Chat.Service) : (desk.asking service).questionAddress? = some a := ha
  have hservice (service : Chat.Service) : (desk.asking service).questions = service := rfl
  by_cases hun : Unanswerable question
  · -- nothing of it depends on the service
    rcases hfields : (QuestionPayload.mk question).complaints with _ | ⟨c, cs⟩
    · exact absurd hun (complaints_eq_nil_iff.mp hfields)
    · simp [Desk.askQuestion, hfields]
  · rw [askQuestion_of_answerable _ hun, askQuestion_of_answerable _ hun, haddress, haddress,
      hservice, hservice, Chat.ask_of_brings h, Chat.ask_of_brings h']
    rfl

end Asking

/-- A request that asks a question is answered whatever the question service does, and two
services that report an error in different words get the client the same answer. -/
theorem answer_question (desk : Desk) {r : Request} {question : String} (h : Asks r question) :
    QuestionExchange desk question (desk.answer r) ∧
      ∀ a, desk.questionAddress? = some a → ∀ service service' error error' sql,
        Brings service (Chat.questionRequest a question) (.error error sql) →
          Brings service' (Chat.questionRequest a question) (.error error' sql) →
            ((desk.asking service).answer r).response =
              ((desk.asking service').answer r).response := by
  refine ⟨answer_exchange desk h, ?_⟩
  intro a ha service service' error error' sql hbrings hbrings'
  rw [answer_of_asks _ h, answer_of_asks _ h]
  exact congrArg Response.shared (askQuestion_of_error desk ha hbrings hbrings')

/-- The base of the address of a question service on the same machine. -/
def localBase : PlainBase where
  secure := false
  scheme := "http".toList
  host := Nat.toDigits 10 127
  domains := [0, 0, 1].map (Nat.toDigits 10)
  port := some 8001
  path := []
  slashes := 0
  scheme_eq := by decide
  labels_ok := by
    have hlabels : ∀ l ∈ Nat.toDigits 10 127 :: [0, 0, 1].map (Nat.toDigits 10),
        l ≠ [] ∧ (∀ c ∈ l, c ∈ Chat.unreserved ∧ c ≠ '.') ∧
          ¬ "xn--".toList <+: l.map Char.toLower := by decide +kernel
    exact fun l hl => ⟨(hlabels l hl).1, (hlabels l hl).2.1, (hlabels l hl).2.2⟩
  kind := .octets 127 0 0 1
  port_lt := by simp
  path_ok := by simp

/-- A question service that reports an error. -/
def failingWith (message : String) : Chat.Service :=
  Chat.constantly 200
    (some (Text.utf8 ("\x7b\"kind\":\"error\",\"error\":\"" ++ message ++ "\"\x7d").toList))

/-- A desk with such a service behind it. -/
def failingDesk : Desk where
  statementTimeoutMs := 15000
  questionBase := localBase.text
  nameRules := fun _ => none
  database :=
    { down := false
      fails := fun _ => false
      revenue := []
      catalog := ⟨[], [], [], []⟩
      result := .unreadable }
  questions := failingWith "no column open"
  elapsed := .string "ms"

lemma questionAddress?_failingDesk : failingDesk.questionAddress? = some localBase.address :=
  localBase.ofText?_endpoint _ (by decide +kernel)

theorem answer_question_failingDesk :
    Asks (askingRequest "How many?") "How many?" ∧
      QuestionExchange failingDesk "How many?" (failingDesk.answer (askingRequest "How many?")) ∧
      ((failingDesk.asking (failingWith "no column open")).answer
          (askingRequest "How many?")).response =
        ((failingDesk.asking (failingWith "no table revenue")).answer
          (askingRequest "How many?")).response := by
  have hasks : Asks (askingRequest "How many?") "How many?" := asks_askingRequest (by decide)
  have hstays (body : Option (List UInt8)) : Chat.Stays ⟨200, none, body⟩ := fun _ => rfl
  have hcolumn : Brings (failingWith "no column open")
      (Chat.questionRequest localBase.address "How many?") (.error "no column open" none) :=
    Chat.brings_constantly
      ⟨hstays _, by decide, by decide, _, rfl, by rw [Chat.ofBytes?_utf8]; cbv⟩
  have htable : Brings (failingWith "no table revenue")
      (Chat.questionRequest localBase.address "How many?") (.error "no table revenue" none) :=
    Chat.brings_constantly
      ⟨hstays _, by decide, by decide, _, rfl, by rw [Chat.ofBytes?_utf8]; cbv⟩
  obtain ⟨hexchange, herror⟩ := answer_question failingDesk hasks
  exact ⟨hasks, hexchange,
    herror _ questionAddress?_failingDesk _ _ _ _ _ hcolumn htable⟩

/-- A question of `n` characters. -/
def longQuestion (n : ℕ) : String := String.ofList (List.replicate n 'x')

lemma length_longQuestion (n : ℕ) : (longQuestion n).length = n := by
  rw [longQuestion, String.length_ofList, List.length_replicate]

/-- A question service that has moved, and only tells where it is. -/
def movedService : Chat.Service :=
  fun _ _ => .responds ⟨307, some (.address ⟨true, "nl.example", "/ask"⟩), some []⟩

/-- A body that is too large is not read, so nobody looks at the question in it. -/
lemma status_answer_longQuestion (desk : Desk) {n : ℕ} (hn : largestBody ≤ n) :
    (desk.answer (askingRequest (longQuestion n))).response.status = 413 := by
  have hlarge : largestBody < (askingRequest (longQuestion n)).body.length := by
    have hbody := le_length_questionBytes (longQuestion n)
    rw [length_longQuestion] at hbody
    simp only [askingRequest]
    omega
  have hroute : Route.of? (askingRequest (longQuestion n)).route =
      some (.post fun desk body => (QuestionPayload.ofBody body).map desk.askQuestion) := by
    rw [route_askingRequest]
    rfl
  rw [desk.answer_tooLarge hroute rfl (saysJson_askingRequest _) hlarge]
  rfl

/-- A question as long as the largest body gets another answer than one that is too long, and a
service that sends on is asked again. -/
theorem answer_longQuestion_or_moved :
    QuestionPayload.ofBody (askingRequest (longQuestion 2097152)).body =
        .ok ⟨longQuestion 2097152⟩ ∧
      Unanswerable (longQuestion 2097152) ∧
      (failingDesk.answer (askingRequest (longQuestion 2097152))).response.status = 413 ∧
      Asks (askingRequest "How many?") "How many?" ∧ ¬ Unanswerable "How many?" ∧
      ((failingDesk.asking movedService).answer (askingRequest "How many?")).asked.length = 11 := by
  have hlong : Unanswerable (longQuestion 2097152) :=
    .tooLong (by rw [length_longQuestion]; decide)
  have hasks : Asks (askingRequest "How many?") "How many?" := asks_askingRequest (by decide)
  have hanswerable : ¬ Unanswerable "How many?" := complaints_eq_nil_iff.mp (by decide)
  refine ⟨ofBody_questionBytes _, hlong, status_answer_longQuestion failingDesk (le_refl _), hasks,
    hanswerable, ?_⟩
  have haddress : (failingDesk.asking movedService).questionAddress? = some localBase.address :=
    questionAddress?_failingDesk
  rw [answer_of_asks _ hasks, askQuestion_of_answerable _ hanswerable, haddress]
  rfl

end RevenueDesk.Web

/-
# Which answer a request gets

A request that a route takes is answered by what the route makes of it: the statements and
the questions are those of this answer, and only the headers of the response tell in
addition that other origins may read it.
-/
import Mathlib.Tactic.Common
import RevenueDesk.Web.Desk

namespace RevenueDesk.Web

/-- The same exchange, with a response for clients on other origins to read. -/
def Exchange.shared (e : Exchange) : Exchange := { e with response := e.response.shared }

variable (desk : Desk) {r : Request}

lemma Desk.answer_get {answer : Desk → Exchange} (hroute : Route.of? r.route = some (.get answer))
    (hmethod : r.method = "GET") : desk.answer r = (answer desk).shared := by
  have hon : desk.answerOn r (Route.of? r.route) = answer desk := by
    rw [hroute]
    simp [Desk.answerOn, hmethod]
  have hoptions : r.method ≠ "OPTIONS" := by
    rw [hmethod]
    decide
  unfold Desk.answer
  simp only [hoptions, if_false, hon, Exchange.shared]

section Posting

variable {answer : Desk → List UInt8 → Except Json.Fault Exchange}

lemma Desk.answer_withBody (hroute : Route.of? r.route = some (.post answer))
    (hmethod : r.method = "POST") : desk.answer r = (withBody (answer desk) r).shared := by
  have hon : desk.answerOn r (Route.of? r.route) = withBody (answer desk) r := by
    rw [hroute]
    simp [Desk.answerOn, hmethod]
  have hoptions : r.method ≠ "OPTIONS" := by
    rw [hmethod]
    decide
  unfold Desk.answer
  simp only [hoptions, if_false, hon, Exchange.shared]

lemma Desk.answer_post {e : Exchange} (hroute : Route.of? r.route = some (.post answer))
    (hmethod : r.method = "POST") (hjson : saysJson r = true) (hsize : r.body.length ≤ largestBody)
    (hbody : answer desk r.body = .ok e) : desk.answer r = e.shared := by
  have hsmall : ¬ largestBody < r.body.length := by omega
  rw [desk.answer_withBody hroute hmethod]
  simp [withBody, hjson, hsmall, hbody]

/-- A body that is too large is not looked into. -/
lemma Desk.answer_tooLarge (hroute : Route.of? r.route = some (.post answer))
    (hmethod : r.method = "POST") (hjson : saysJson r = true)
    (hsize : largestBody < r.body.length) :
    desk.answer r = (Exchange.ofResponse bodyTooLarge).shared := by
  rw [desk.answer_withBody hroute hmethod]
  simp [withBody, hjson, hsize]

end Posting

end RevenueDesk.Web

import CoapNode.Proofs.Observe.Notifying
import CoapNode.Proofs.Radio.Steadiness
/-! What becomes of a request that is offered to an observable resource. The table changes in two
ways only: the sender's entry is written because the network took a notification that answers its
request, or it is removed because the sender does not want to observe. -/
namespace CoapNode

theorem Radio.addressResponse_content (r : Radio) (m : Received) (response : Message) :
    ∃ kind id, (r.addressResponse m response).2 = { response with kind, id } := by
  unfold Radio.addressResponse
  split <;> exact ⟨_, _, rfl⟩

namespace Observable

variable {s : Observable} {n : Node} {m : Received}

/-- The conditions of a request to observe, if there is room for its sender. Unless something
fails it is answered with a notification. -/
def registration? (s : Observable) (m : Received) : Option (List Condition) :=
  if s.endpoint.accepts m.packet && m.packet.code == Code.get && m.packet.observe.toBool &&
      s.hasRoom m.peer then
    (parseConditions [] m.packet.conditions).toOption.filter fun conditions =>
      !conditions.any (·.kind == .cancellation)
  else none

/-- The request tells that its sender does not observe, or not any more. -/
structure Declines (s : Observable) (m : Received) : Prop where
  accepts : s.endpoint.accepts m.packet = true
  get : m.packet.code = Code.get
  declines : ∃ conditions, parseConditions [] m.packet.conditions = .ok conditions ∧
    (m.packet.observe.toBool = false ∨ ∃ c ∈ conditions, c.kind = .cancellation)

def without (s : Observable) (peer : NodeId) : Observable :=
  { s with observers := s.observers.filter fun o => o.peer != peer }

/-- The network took a notification that answers the request. -/
structure Answers (s : Observable) (n : Node) (m : Received) (now : Nat) (r : Radio)
    (t : Transmission) : Prop where
  clock : n.radio.now = .ok now
  goes : t.peer = m.peer
  notifies : s.Notifies m.packet.token t.packet
  rides : t.packet.kind = .acknowledgement → t.packet.id = m.packet.id
  takes : n.radio.Takes r [t]
  leads : n.radio.Leads r

/-- The resource and the node after a request was offered. -/
inductive Serves (s : Observable) (n : Node) (m : Received) : Observable → Node → Prop
  | apart {n' : Node} (other : s.registration? m = none ∨ ∃ e, n.radio.now = .error e)
      (leads : n.Leads n') : Serves s n m s n'
  | stopped {n' : Node} (other : s.registration? m = none) (declines : s.Declines m)
      (leads : n.Leads n') : Serves s n m (s.without m.peer) n'
  /-- The network took at most an answer that is no notification. -/
  | failed {n' : Node} {taken : List Transmission} (takes : n.radio.Takes n'.radio taken)
      (others : ∀ t ∈ taken, t.packet.code ≠ Code.content) (leads : n.Leads n') :
      Serves s n m s n'
  | registered {r : Radio} {t : Transmission} {conditions : List Condition} {now : Nat}
      (registers : s.registration? m = some conditions) (answers : s.Answers n m now r t) :
      Serves s n m (s.enter r (s.entry m now conditions)).1
        { n with radio := (s.enter r (s.entry m now conditions)).2 }

theorem replyOrNote_takes (n : Node) (m : Received) (code : Code) (payload : List UInt8) :
    ∃ taken, n.radio.Takes (replyOrNote n m code payload).1.radio taken ∧
      ∀ t ∈ taken, t.packet.code = code := by
  unfold replyOrNote Radio.reply
  split
  next done =>
    split at done
    · cases done
    next packet filled =>
    rcases n.radio.respond_cases m packet with
      ⟨r, _, marked, whole, marks, sent⟩ | ⟨r, e, failed, -⟩
    · rw [whole] at done
      cases done
      cases sent with
      | through t goes holds takes =>
        refine ⟨[t], takes, fun x member => ?_⟩
        obtain ⟨kind, id, content⟩ := n.radio.addressResponse_content m marked
        have blank : ({ Packet.fresh 128 with code := code } : Message).Canonical :=
          (Packet.fresh_canonical 128).of_same_content rfl rfl rfl rfl
        have same : packet.code = code := by
          obtain ⟨-, rfl⟩ := Packet.setPayload_ok filled
          rfl
        rw [List.mem_singleton.mp member, holds, content]
        exact ((blank.setPayload filled).token_setToken marks).2.code.trans same
    · rw [failed] at done
      cases done
  next r m' e failed =>
    refine ⟨[], ?_, by simp⟩
    split at failed
    · cases failed
      exact Radio.takes_of_same rfl
    next packet filled =>
    rcases n.radio.respond_cases m packet with
      ⟨_, _, _, whole, -⟩ | ⟨r', e', refused, takes⟩
    · rw [whole] at failed
      cases failed
    · rw [refused] at failed
      cases failed
      exact takes.later rfl

theorem answers_of_respond {now : Nat} {packet : Message} {r : Radio} {m' : Received}
    (clock : n.radio.now = .ok now) (built : s.notification m.packet.token = .ok packet)
    (done : n.radio.respond m packet = (r, m', .ok ())) : ∃ t, s.Answers n m now r t := by
  have leads := n.radio.respond_leads m packet
  rw [done] at leads
  rcases n.radio.respond_cases m packet with
    ⟨_, _, marked, whole, marks, sent⟩ | ⟨_, _, failed, -⟩
  · rw [done] at whole
    cases whole
    cases sent with
    | through t goes holds takes =>
      obtain ⟨kind, id, content⟩ := n.radio.addressResponse_content m marked
      have notifies : s.Notifies m.packet.token t.packet := by
        rw [holds, content]
        exact ((notification_notifies built).setToken marks).addressed kind id
      have rides := (n.radio.addressResponse_addresses m marked).2.id
      rw [← holds] at rides
      exact ⟨t, clock, goes, notifies, rides, takes, leads⟩
  · rw [done] at failed
    cases failed

theorem takes_of_unsent {r s : Radio} {m m' : Received} {packet : Message} {e : RuntimeError}
    (failed : r.respond m packet = (s, m', .error e)) : r.Takes s [] := by
  rcases r.respond_cases m packet with ⟨_, _, _, whole, -⟩ | ⟨_, _, refused, takes⟩
  · rw [failed] at whole
    cases whole
  · rw [failed] at refused
    cases refused
    exact takes

theorem note_replyOrNote_leads (n : Node) (severity : Severity) (text : String) (m : Received)
    (code : Code) (payload : List UInt8) :
    n.Leads (replyOrNote (n.note severity text) m code payload).1 :=
  (n.note_leads severity text).trans fun _ steady => steady.replyOrNote_binds _ m code payload

theorem afterFailure_leads (s : Observable) (peer : NodeId) (n : Node) (m : Received)
    (e : RuntimeError) : n.Leads (s.afterFailure peer n m e).2.1 :=
  fun _ steady => steady.afterFailure s peer n m e

theorem afterFailure_takes (s : Observable) (peer : NodeId) (n : Node) (m : Received)
    (e : RuntimeError) : ∃ taken, n.radio.Takes (s.afterFailure peer n m e).2.1.radio taken ∧
      ∀ t ∈ taken, t.packet.code ≠ Code.content := by
  unfold afterFailure
  simp only
  split
  · obtain ⟨taken, replied, codes⟩ := replyOrNote_takes (n.note .warn
      ("could not register observer " ++ toString peer ++ ": " ++ e.inspect)) m
      Code.internalServerError []
    refine ⟨taken, replied.before rfl, fun t member same => ?_⟩
    rw [codes t member] at same
    exact absurd same (by decide)
  · exact ⟨[], Radio.takes_of_same rfl, by simp⟩

theorem offer_cases (s : Observable) (n : Node) (m : Received) :
    s.Serves n m (s.offer n m).1 (s.offer n m).2.1 := by
  unfold offer
  cases accepts : s.endpoint.accepts m.packet with
  | false => exact .apart (.inl (by simp [registration?, accepts])) (.refl _)
  | true =>
  rw [if_neg (by decide)]
  by_cases get : m.packet.code = Code.get
  case neg =>
    rw [if_neg get]
    exact .apart (.inl (by simp [registration?, get])) (s.endpoint.handle_leads n m)
  rw [if_pos get]
  simp only
  have gets := s.receiveGet_gets n m
  generalize s.receiveGet n m = left at gets ⊢
  cases gets with
  | refused parsed =>
    exact .apart (.inl (by simp [registration?, parsed, Except.toOption]))
      (note_replyOrNote_leads n _ _ m _ _)
  | @stopped conditions parsed ends =>
    refine .stopped ?_ ⟨accepts, get, conditions, parsed, ends⟩ (s.stopObserving_leads n m)
    rcases ends with plain | ends
    · simp [registration?, plain]
    · simp [registration?, parsed, Except.toOption, Option.filter, ends]
  | @wanted conditions parsed observe kept =>
  have registers : s.registration? m = if s.hasRoom m.peer then some conditions else none := by
    have kept : (some conditions).filter (fun x => !x.any (·.kind == .cancellation)) =
        some conditions := by
      simpa [Option.filter] using kept
    simp [registration?, accepts, get, observe, parsed, Except.toOption, kept]
  have admits := s.registerObserver_admits n m conditions
  generalize s.registerObserver n m conditions = outcome at admits ⊢
  cases admits with
  | @unclocked e clock =>
    simp only [afterAttempt, afterFailure_same]
    exact .apart (.inr ⟨e, clock⟩) (s.afterFailure_leads _ _ _ _)
  | full clock full =>
    simp only [afterAttempt, afterFailure_same]
    exact .apart (.inl (by rw [registers, full]; rfl))
      ((s.endpoint.handle_leads n m).trans (s.afterFailure_leads _ _ _ _))
  | @unbuilt now e =>
    obtain ⟨taken, takes, others⟩ := s.afterFailure_takes m.peer n m e
    simp only [afterAttempt, afterFailure_same]
    exact .failed takes others (s.afterFailure_leads _ _ _ _)
  | @unsent now packet r e clock room built failed =>
    obtain ⟨taken, takes, others⟩ := s.afterFailure_takes m.peer { n with radio := r } m e
    have leads := n.radio.respond_leads m packet
    rw [failed] at leads
    simp only [afterAttempt, afterFailure_same]
    exact .failed ((takes_of_unsent failed).trans takes) (by simpa using others)
      ((Node.leads_of_radio leads).trans (s.afterFailure_leads _ _ _ _))
  | entered clock room built done =>
    obtain ⟨t, answers⟩ := answers_of_respond clock built done
    exact .registered (by rw [registers, room]; rfl) answers

end Observable
end CoapNode

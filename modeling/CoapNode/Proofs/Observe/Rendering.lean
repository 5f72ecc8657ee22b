import CoapNode.Proofs.Datagrams
import CoapNode.Proofs.Packet.Fields
/-! What can keep a notification from being sent. Its number, its age and its token are short, so
that they have room beside any status that can be rendered, and the token of any request has as much
room. Only a status that cannot be rendered keeps a notification from being built; whatever else
fails while a status is published, refreshed or first told, the codec has no part in it. -/
namespace CoapNode
/-! ## The content of a notification -/

namespace Observable

section

variable (s : Observable) (t : ShortBytes)

theorem noticeOptions_observe :
    optionsAt .observe (s.noticeOptions t) = [⟨.observe, minimalBytes s.counter⟩] := by
  unfold noticeOptions ageOptions tokenOptions
  split <;> split <;> rfl

theorem noticeOptions_token : optionsAt .token (s.noticeOptions t) = tokenOptions t := by
  unfold noticeOptions ageOptions tokenOptions
  split <;> split <;> rfl

theorem noticeOptions_maxAge : optionsAt .maxAge (s.noticeOptions t) = ageOptions s.maxAge := by
  unfold noticeOptions ageOptions tokenOptions
  split <;> split <;> rfl

theorem noticeOptions_without :
    CoapNode.without .token (s.noticeOptions t) = s.noticeOptions .empty := by
  unfold noticeOptions ageOptions tokenOptions
  split <;> split <;> rfl

theorem noticeOptions_insertAfter (filled : t.isEmpty = false) :
    insertAfter .token [⟨.token, t.bytes⟩] (s.noticeOptions .empty) = s.noticeOptions t := by
  unfold noticeOptions ageOptions tokenOptions
  rw [filled]
  split <;> rfl

end

/-- The packet tells the number, the age and the payload of a status under a token. -/
structure Fills (s : Observable) (t : ShortBytes) (payload : List UInt8) (p : Message) : Prop where
  canonical : p.Canonical
  number : p.observe = .ok s.counter
  token : p.token = t
  age : p.maxAge = s.maxAge
  /-- The usual age is left out. -/
  aged : p.isSet .maxAge = true ↔ s.maxAge ≠ defaultMaxAge
  /-- There are no other options. -/
  options : p.options = s.noticeOptions t
  payload : p.payload = payload

variable {s : Observable} {t : ShortBytes} {payload : List UInt8} {p : Message}

theorem fills_of_options (canonical : p.Canonical) (options : p.options = s.noticeOptions t)
    (filled : p.payload = payload) : s.Fills t payload p where
  canonical := canonical
  number := by
    apply canonical.readUInt_minimal (by decide)
    rw [canonical.segments_eq (by decide), options, noticeOptions_observe]
    rfl
  token := by
    rw [canonical.token_eq, options, noticeOptions_token, tokenOptions]
    split
    · next none => rw [ShortBytes.eq_empty none]; rfl
    · simp [ShortBytes.ofList?, t.length_le]
  age := by
    have stored : p.segments .maxAge = (ageOptions s.maxAge).map (·.value) := by
      rw [canonical.segments_eq (by decide), options, noticeOptions_maxAge]
    rw [Packet.maxAge, canonical.readUInt_of_segments (by decide) stored, ageOptions]
    by_cases usual : s.maxAge = defaultMaxAge <;> simp [usual, bigEndian_minimalBytes]
  aged := by
    rw [canonical.isSet_eq (by decide) (by decide), options, noticeOptions_maxAge, ageOptions]
    by_cases usual : s.maxAge = defaultMaxAge <;> simp [usual]
  options := options
  payload := filled

/-- Any number, age and token have room beside any payload that a status may take. -/
theorem fillNotification_fills (s : Observable) (t : ShortBytes)
    (short : payload.length ≤ payloadBuffer) :
    ∃ p, s.fillNotification t payload = .ok p ∧ s.Fills t payload p := by
  obtain ⟨p, filled, canonical, options, whole⟩ := s.fillNotification_fits t short
  exact ⟨p, filled, fills_of_options canonical options whole⟩

theorem Fills.setToken (h : s.Fills t payload p) (short : payload.length ≤ payloadBuffer)
    (other : ShortBytes) : ∃ q, p.setToken other = .ok q ∧ s.Fills other payload q := by
  have lawful := h.canonical.lawful
  have exchanged : ∃ q, p.setToken other = .ok q ∧ q.options = s.noticeOptions other ∧
      q.payload = payload := by
    rw [Packet.setToken_eq]
    split
    · next none =>
      refine ⟨_, h.canonical.removeOption_eq (by decide) (by decide), ?_, h.payload⟩
      rw [p.withOptions_options _ (lawful.without _), h.options, noticeOptions_without,
        ShortBytes.eq_empty none]
    · next filled =>
      have carries := OptionNumber.carries_token other
      have whole : insertAfter .token (occurrences .token (OptionNumber.written .token
          (.bytes other.bytes))) (CoapNode.without .token p.options) = s.noticeOptions other := by
        rw [h.options, noticeOptions_without]
        exact s.noticeOptions_insertAfter other (by simpa using filled)
      have inserted : LawfulOptions (s.noticeOptions other) := by
        rw [← whole]
        exact (lawful.without _).inserts carries (.inr (by simp [CoapNode.without]))
      have room := (s.noticeOptions_brief other).room inserted
      have start := h.canonical.payloadStart_eq
      rw [h.payload] at start
      unfold payloadBuffer at short
      have done : p.setOption .token (.bytes other.bytes) =
          .ok (p.withOptions (s.noticeOptions other)) := by
        rw [h.canonical.setOption_iff, whole]
        exact ⟨⟨carries, by omega⟩, rfl⟩
      exact ⟨_, done, p.withOptions_options _ inserted, h.payload⟩
  obtain ⟨q, done, options, whole⟩ := exchanged
  exact ⟨q, done, fills_of_options (h.canonical.setToken done) options whole⟩

theorem Fills.addressed (h : s.Fills t payload p) (kind : MessageKind) (id : MessageId) :
    s.Fills t payload { p with kind, id } where
  canonical := h.canonical.of_same_content rfl rfl rfl rfl
  number := h.number
  token := h.token
  age := h.age
  aged := h.aged
  options := h.options
  payload := h.payload

theorem Fills.respond (h : s.Fills t payload p) (short : payload.length ≤ payloadBuffer)
    (r : Radio) (m : Received) : ∃ q, (Sending.respond p).message r m = .ok q ∧
      s.Fills m.packet.token payload q := by
  obtain ⟨q, marked, fills⟩ := h.setToken short m.packet.token
  obtain ⟨kind, id, content⟩ := r.addressResponse_content m q
  refine ⟨_, ?_, content ▸ fills.addressed kind id⟩
  change Sending.response r m p = _
  simp only [Sending.response, marked, Except.map]

theorem notification_eq_ok_iff : s.notification t = .ok p ↔
    ∃ payload, s.renderer.payload? s.status = some payload ∧
      s.fillNotification t payload = .ok p := by
  unfold notification
  cases s.renderer.payload? s.status with
  | none => simp
  | some payload => cases filled : s.fillNotification t payload <;> simp [filled]

/-! ## Failures -/

theorem now_written (r : Radio) : Written r.now := by
  intro e unreadable
  rw [RuntimeError.codec?, cause_of_now unreadable]

theorem reply_written (r : Radio) (m : Received) (code : Code) {payload : List UInt8}
    (short : payload.length ≤ payloadBuffer) : Written (r.reply m code payload).2.2 := by
  obtain ⟨p, message, -⟩ := Sending.reply_message r m code short
  have replies : (Sending.reply code payload).Canonical := trivial
  exact Sending.run_written replies message

theorem respond_written (s : Observable) (r : Radio) (m : Received) {packet : Message}
    (built : s.notification t = .ok packet) : Written (r.respond m packet).2.2 := by
  obtain ⟨payload, rendered, filled⟩ := notification_eq_ok_iff.mp built
  have short := Renderer.payload?_length rendered
  obtain ⟨p, filled', fills⟩ := s.fillNotification_fills t short
  cases filled.symm.trans filled'
  obtain ⟨q, message, -⟩ := fills.respond short r m
  have answers : (Sending.respond packet).Canonical := fills.canonical
  exact Sending.run_written answers message

theorem notify_written (s : Observable) (now : Nat) (r : Radio) (o : Observer) :
    Written (s.notify now r o).2.2 := by
  have written := s.sendNotification_written r o
  unfold notify
  split
  · exact .ok ()
  · next failed =>
    rw [failed] at written
    exact written.error

theorem notifyEach_written (s : Observable) (now : Nat) (unconditionally : Bool) (r : Radio)
    (observers : List Observer) :
    Written (s.notifyEach now unconditionally r observers).2.2 := by
  induction observers generalizing r with
  | nil => exact .ok ()
  | cons o rest ih =>
    unfold notifyEach
    split
    · have later := ih (s.notify now r o).1
      simp only
      split
      · exact s.notify_written now r o
      · next failed =>
        rw [failed] at later
        exact later.error
    · exact ih r

theorem notifyObservers_written (s : Observable) (r : Radio) (unconditionally : Bool) :
    Written (s.notifyObservers r unconditionally).2.2 := by
  unfold notifyObservers
  split
  · next unreadable =>
    have clock := now_written r
    rw [unreadable] at clock
    exact clock.error
  · exact s.notifyEach_written _ unconditionally r s.observers

theorem setStatus_written (s : Observable) (r : Radio) (v : Reading) :
    Written (s.setStatus r v).2.2 :=
  notifyObservers_written { s with status := v, counter := s.counter + 1 } r false

theorem registerObserver_written (s : Observable) (n : Node) (m : Received)
    (conditions : List Condition) : Written (s.registerObserver n m conditions).2.2.2 := by
  have admits := s.registerObserver_admits n m conditions
  generalize s.registerObserver n m conditions = outcome at admits ⊢
  cases admits with
  | unclocked unreadable =>
    have clock := now_written n.radio
    rw [unreadable] at clock
    exact clock.error
  | full =>
    rintro e ⟨⟩
    rfl
  | unbuilt _ _ unbuilt =>
    obtain ⟨-, rfl⟩ := notification_eq_error_iff.mp unbuilt
    rintro e ⟨⟩
    rfl
  | unsent _ _ built failed =>
    have written := s.respond_written n.radio m built
    rw [failed] at written
    exact written.error
  | entered => exact .ok ()

end Observable

/-! ## The log -/

/-- A record of an attempt to send, or of a failure in which the codec had no part. -/
inductive LogRecord.Uncoded : LogRecord → Prop
  | attempt (peer : NodeId) (packet : Message) :
      Uncoded ⟨.trace, "-> " ++ toString peer ++ " " ++ packet.summary⟩
  | unsent (id : MessageId) :
      Uncoded ⟨.warn, "not sending " ++ id.inspect ++ ": too many unacknowledged messages"⟩
  | notifying (peer : NodeId) {e : RuntimeError} (other : e.codec? = none) :
      Uncoded ⟨.warn, "notifying " ++ toString peer ++ " failed: " ++ e.inspect⟩
  | refreshing {e : RuntimeError} (other : e.codec? = none) :
      Uncoded ⟨.warn, "max-age refresh failed: " ++ e.inspect⟩

namespace Radio

def LogsUncoded (r s : Radio) : Prop :=
  ∃ records, s.log = r.log ++ records ∧ ∀ x ∈ records, x.Uncoded

variable {r s t : Radio}

theorem logsUncoded_of_same (same : s.log = r.log) : r.LogsUncoded s :=
  ⟨[], by rw [same, List.append_nil], by simp⟩

theorem LogsUncoded.trans (first : r.LogsUncoded s) (second : s.LogsUncoded t) :
    r.LogsUncoded t := by
  obtain ⟨xs, logged, all⟩ := first
  obtain ⟨ys, logged', all'⟩ := second
  refine ⟨xs ++ ys, by rw [logged', logged, List.append_assoc], fun x member => ?_⟩
  exact (List.mem_append.mp member).elim (all x) (all' x)

theorem LogsUncoded.note (h : r.LogsUncoded s) {severity : Severity} {text : String}
    (uncoded : LogRecord.Uncoded ⟨severity, text⟩) : r.LogsUncoded (s.note severity text) :=
  h.trans ⟨[_], rfl, by simpa using uncoded⟩

theorem transmit_logsUncoded (r : Radio) (peer : NodeId) (packet : Message) (activity : Activity) :
    r.LogsUncoded (r.transmit peer packet activity).1 := by
  have noted := (logsUncoded_of_same (r := r) rfl).note (.attempt peer packet)
  unfold transmit
  split
  · exact logsUncoded_of_same rfl
  · simp only
    split <;> exact noted

theorem track_logsUncoded (r : Radio) (peer : NodeId) (packet : Message) :
    r.LogsUncoded (r.track peer packet) := by
  unfold track
  split <;> exact logsUncoded_of_same rfl

theorem send_logsUncoded (r : Radio) (peer : NodeId) (packet : Message) :
    r.LogsUncoded (r.send peer packet).1 := by
  have sent := r.transmit_logsUncoded peer packet (.sending packet.id)
  unfold send
  simp only
  split
  · exact (logsUncoded_of_same rfl).note (.unsent packet.id)
  split
  · next failed =>
    rw [failed] at sent
    exact sent
  · next done =>
    rw [done] at sent
    split
    · exact sent.trans (track_logsUncoded _ peer packet)
    · exact sent

theorem sendFresh_logsUncoded (r : Radio) (peer : NodeId) (packet : Message) :
    r.LogsUncoded (r.sendFresh peer packet).1 := by
  have sent := r.drawId.1.send_logsUncoded peer { packet with id := r.drawId.2 }
  have drawn : r.LogsUncoded r.drawId.1 := logsUncoded_of_same rfl
  unfold sendFresh
  simp only
  split <;> next done =>
    rw [done] at sent
    exact drawn.trans sent

end Radio

namespace Observable

theorem sendNotification_logsUncoded (s : Observable) (r : Radio) (o : Observer) :
    r.LogsUncoded (s.sendNotification r o).1 := by
  unfold sendNotification
  split
  · exact Radio.logsUncoded_of_same rfl
  · exact r.sendFresh_logsUncoded o.peer _

theorem notify_logsUncoded (s : Observable) (now : Nat) (r : Radio) (o : Observer) :
    r.LogsUncoded (s.notify now r o).1 := by
  have sent := s.sendNotification_logsUncoded r o
  have written := s.sendNotification_written r o
  unfold notify
  split
  · next done =>
    rw [done] at sent
    exact sent
  · next failed =>
    rw [failed] at sent written
    exact sent.note (.notifying o.peer (written _ rfl))

theorem notifyEach_logsUncoded (s : Observable) (now : Nat) (unconditionally : Bool) (r : Radio)
    (observers : List Observer) :
    r.LogsUncoded (s.notifyEach now unconditionally r observers).1 := by
  induction observers generalizing r with
  | nil => exact Radio.logsUncoded_of_same rfl
  | cons o rest ih =>
    unfold notifyEach
    split
    · have both := (s.notify_logsUncoded now r o).trans (ih (s.notify now r o).1)
      simp only
      split <;> exact both
    · exact ih r

theorem notifyObservers_logsUncoded (s : Observable) (r : Radio) (unconditionally : Bool) :
    r.LogsUncoded (s.notifyObservers r unconditionally).2.1 := by
  unfold notifyObservers
  split
  · exact Radio.logsUncoded_of_same rfl
  · exact s.notifyEach_logsUncoded _ unconditionally r s.observers

theorem scheduleRefresh_logsUncoded (s : Observable) (r : Radio) :
    r.LogsUncoded (s.scheduleRefresh r).2 := by
  unfold scheduleRefresh
  split <;> exact Radio.logsUncoded_of_same rfl

theorem setStatus_logsUncoded (s : Observable) (r : Radio) (v : Reading) :
    r.LogsUncoded (s.setStatus r v).2.1 :=
  (notifyObservers_logsUncoded { s with status := v, counter := s.counter + 1 } r false).trans
    (scheduleRefresh_logsUncoded _ _)

theorem timerFired_logsUncoded (s : Observable) (r : Radio) :
    r.LogsUncoded (s.timerFired r).2 := by
  unfold timerFired
  simp only
  split
  · exact Radio.logsUncoded_of_same rfl
  · generalize { s with pendingRefreshes := s.pendingRefreshes - 1, counter := s.counter + 1 } = s'
    have told := s'.notifyObservers_logsUncoded r true
    have written := s'.notifyObservers_written r true
    refine Radio.LogsUncoded.trans ?_ (scheduleRefresh_logsUncoded _ _)
    split
    · exact told
    · next failed => exact told.note (.refreshing (written _ failed))

/-- A notification has room for any number, age and token beside any payload that a status may take,
and its token can be exchanged for that of any message it answers. It is not built exactly if the
status cannot be rendered. So whatever keeps a status from being published, told to an observer, or
told first to the sender of a request, the codec has no part in it, and none in what the log tells
of a refresh. -/
theorem notifications_fit (s : Observable) :
    (∀ t payload, payload.length ≤ payloadBuffer → ∃ p, s.fillNotification t payload = .ok p ∧
      s.Fills t payload p ∧ ∀ r m, ∃ q, (Sending.respond p).message r m = .ok q ∧
        s.Fills m.packet.token payload q) ∧
    (∀ t p, s.notification t = .ok p ↔ ∃ payload, s.renderer.payload? s.status = some payload ∧
      payload.length ≤ payloadBuffer ∧ s.fillNotification t payload = .ok p) ∧
    (∀ t e, s.notification t = .error e ↔
      s.renderer.payload? s.status = none ∧ e = ⟨.payloadFormat, .notifying⟩) ∧
    (∀ r o, Written (s.sendNotification r o).2) ∧
    (∀ (r : Radio) v, Written (s.setStatus r v).2.2 ∧ r.LogsUncoded (s.setStatus r v).2.1) ∧
    (∀ r unconditionally, Written (s.notifyObservers r unconditionally).2.2) ∧
    (∀ r : Radio, r.LogsUncoded (s.timerFired r).2) ∧
    (∀ n m conditions, Written (s.registerObserver n m conditions).2.2.2) ∧
    ∀ (r : Radio) m code payload, payload.length ≤ payloadBuffer →
      Written (r.reply m code payload).2.2 := by
  refine ⟨fun t payload short => ?_, fun t p => ?_, fun t e => notification_eq_error_iff,
    s.sendNotification_written, fun r v => ⟨s.setStatus_written r v, s.setStatus_logsUncoded r v⟩,
    s.notifyObservers_written, s.timerFired_logsUncoded, s.registerObserver_written,
    fun r m code payload => reply_written r m code⟩
  · obtain ⟨p, filled, fills⟩ := s.fillNotification_fills t short
    exact ⟨p, filled, fills, fills.respond short⟩
  · rw [notification_eq_ok_iff]
    refine exists_congr fun payload => and_congr_right fun rendered => ?_
    exact (and_iff_right (Renderer.payload?_length rendered)).symm

/-- Every part is as long as it may be. -/
theorem notifications_fit_largest :
    let s : Observable := ⟨⟨"a", none, false, .fixed []⟩, .natural 0, 0xFFFFFFFF, true, [],
      0xFFFFFFFF, 0, Renderer.repeated 64⟩
    let t : ShortBytes := ⟨[1, 2, 3, 4, 5, 6, 7, 8], by decide⟩
    let payload := List.replicate 64 120
    let r := Radio.start 0 {} {}
    let m := Received.fresh (Packet.fresh 128) 1
    s.renderer.payload? s.status = some payload ∧ payload.length ≤ payloadBuffer ∧
      ∃ p, s.notification t = .ok p ∧ s.Fills t payload p ∧
        p.region.length + p.payload.length = 83 ∧
        ∃ q, (Sending.respond p).message r m = .ok q ∧ s.Fills .empty payload q := by
  intro s t payload r m
  obtain ⟨fills, builds, -⟩ := notifications_fit s
  have rendered : s.renderer.payload? s.status = some payload := by decide +kernel
  have short : payload.length ≤ payloadBuffer := by decide
  obtain ⟨p, filled, content, answers⟩ := fills t payload short
  have length : p.region.length + p.payload.length = 83 := by
    rw [content.canonical.region, content.options, content.payload]
    decide +kernel
  exact ⟨rendered, short, p, (builds t p).mpr ⟨payload, rendered, short, filled⟩, content, length,
    answers r m⟩

end Observable
end CoapNode

import CodexOctopus.QueueLimit

/-!
# Orphaned requests of a bridge session

A request in the deque waits for an answer on the socket it was sent on, which the reader
forwards. When the upstream is lost the reader fails all requests, or sends one of them again
on a fresh upstream. But in the second case, and when a submit opens a fresh upstream for its
own request, the others stay in the deque: their socket is gone, and nobody fails them. The
close of a session by others cancels the reader and leaves the deque alone, too.

* `NoOrphans`: every request of the deque is in the hands of a task that sends it or fails it,
  or it was sent on the session's socket and the session's reader runs.
-/

namespace CodexOctopus

open List Table Lts

/-! ## The property and the condition -/

def SubmitPhase.holds : SubmitPhase → Bool
  | .sending | .reconnecting | .resending => true
  | _ => false

def SocketReaderPhase.handles (id : ℕ) : SocketReaderPhase → Bool
  | .reconnecting requestId | .resending requestId => requestId = id
  | .resetting | .failing => true
  | .receiving | .ending => false

namespace SocketSession

def submitting (s : SocketSession) (id : ℕ) : Bool := (s.submit id).any (·.phase.holds)

def inHand (s : SocketSession) (id : ℕ) : Bool :=
  s.submitting id || s.readers.any (·.2.handles id)

def onSocket (s : SocketSession) (id : ℕ) : Bool :=
  (Table.lookup Prod.fst s.sent id).any (·.2 = s.socket)

def Attended (s : SocketSession) (id : ℕ) : Prop :=
  s.inHand id = true ∨ (s.onSocket id = true ∧ s.hasReader = true)

def retries (s : SocketSession) (id : ℕ) : Bool :=
  (s.submit id).any fun t =>
    !t.request.prewarm && !t.request.hasPreviousResponseId && id ∉ s.replayed

end SocketSession

def NoOrphans (s : SocketSession) : Prop := ∀ r ∈ s.pending, s.Attended r.requestId

/-- **The condition** on steps: no request relies on a reader that is stopped or a socket that is
replaced, texts are sent while the reader runs, and a cancelled submit leaves no request behind. -/
def KeepsUpstream (s : SocketSession) : SocketAct → Prop
  | .arrive _ => s.closed = true → ∀ r ∈ s.pending, s.submitting r.requestId = true
  | .sendFailed id => s.retries id = true → ∀ r ∈ s.pending, s.submitting r.requestId = true
  | .close | .reader _ .finish | .reader _ .raised =>
    ∀ r ∈ s.pending, s.submitting r.requestId = true
  | .reopened _ | .reconnected _ | .reader _ .reconnected =>
    ∀ r ∈ s.pending, s.inHand r.requestId = true
  | .send _ | .resent _ | .reader _ .resent => s.hasReader = true
  | .interrupt id => (∀ r ∈ s.pending, r.requestId ≠ id) ∨
    (s.submit id).all (fun t => t.phase = .reading || (t.phase = .sending && !t.request.prewarm)) =
      true
  | _ => True

instance decidableKeepsUpstream (s : SocketSession) : ∀ a, Decidable (KeepsUpstream s a)
  | .arrive _ | .sendFailed _ | .close | .reopened _ | .reconnected _ | .send _ | .resent _
  | .interrupt _ => by dsimp only [KeepsUpstream]; infer_instance
  | .reopenFailed _ | .enter _ | .prewarm _ | .acquire _ | .leave _ _ | .append _
  | .reconnectFailed _ | .resendFailed _ | .prewarmFailed _ | .detach _ => .isTrue trivial
  | .reader _ b => by
    cases b
    all_goals
      dsimp only [KeepsUpstream]
      infer_instance

/-! ## Tasks and sockets -/

namespace SocketSession

variable {s s' : SocketSession} {id i : ℕ} {t : Submit} {phase : SubmitPhase}

theorem submitting_setPhase_of_ne (hne : i ≠ id) :
    (s.setPhase id phase).submitting i = s.submitting i := by
  have hlookup : (s.setPhase id phase).submit i = s.submit i := by
    rw [SocketSession.submit, SocketSession.setPhase, lookup_updateWhere]
    · rcases hl : Table.lookup Submit.requestId s.submits i with _ | u
      · rw [SocketSession.submit, hl]
        rfl
      · have hu : u.requestId = i := key_of_lookup hl
        rw [SocketSession.submit, hl]
        simp [hu, hne]
    · exact fun _ => rfl
  rw [SocketSession.submitting, SocketSession.submitting, hlookup]

theorem submitting_setPhase (ht : s.submit id = some t) :
    (s.setPhase id phase).submitting id = phase.holds := by
  have hid : t.requestId = id := key_of_lookup ht
  have hlookup : (s.setPhase id phase).submit id = some { t with phase := phase } := by
    rw [SocketSession.submit, SocketSession.setPhase, lookup_updateWhere]
    · rw [SocketSession.submit] at ht
      rw [ht]
      simp [hid]
    · exact fun _ => rfl
  rw [SocketSession.submitting, hlookup]
  rfl

theorem submitting_endSubmit_of_ne (hne : i ≠ id) :
    (s.endSubmit id).submitting i = s.submitting i := by
  have hlookup : (s.endSubmit id).submit i = s.submit i := by
    simp only [SocketSession.submit, SocketSession.endSubmit, Table.lookup, List.find?_filter]
    congr 1
    funext u
    by_cases hu : u.requestId = i
    · simp [hu, hne]
    · simp [hu]
  rw [SocketSession.submitting, SocketSession.submitting, hlookup]

theorem submitting_append {l : List Submit} (hs : s'.submits = s.submits ++ l)
    (h : s.submitting id = true) : s'.submitting id = true := by
  obtain ⟨t, ht, hholds⟩ := (Option.any_eq_true _ _).mp h
  have hlookup : s'.submit id = some t := by
    rw [SocketSession.submit, hs]
    exact lookup_append_of_some ht
  rw [SocketSession.submitting, hlookup]
  exact hholds

theorem ne_of_submitting (ht : s.submit id = some t) (hphase : t.phase.holds = false)
    (hi : s.submitting i = true) : i ≠ id := by
  rintro rfl
  rw [SocketSession.submitting, ht] at hi
  rw [show Option.any _ (some t) = t.phase.holds from rfl, hphase] at hi
  cases hi

theorem onSocket_record : (s.record id).onSocket id = true := by
  simp [SocketSession.onSocket, SocketSession.record, Table.lookup]

theorem onSocket_record_of_ne (hne : i ≠ id) : (s.record id).onSocket i = s.onSocket i := by
  have hlookup : Table.lookup Prod.fst ((id, s.socket) :: s.sent) i =
      Table.lookup Prod.fst s.sent i :=
    find?_cons_of_neg (by simpa using hne.symm)
  rw [SocketSession.onSocket, SocketSession.record, hlookup]
  rfl

theorem inHand_of_submitting (h : s.submitting id = true) : s.inHand id = true := by
  rw [SocketSession.inHand, h, Bool.true_or]

theorem Attended.mono (h : s.Attended i) (hsubmit : s.submitting i = true → s'.submitting i = true)
    (hreaders : s'.readers = s.readers) (hreader : s'.reader = s.reader)
    (hsocket : s.onSocket i = true → s'.onSocket i = true) : s'.Attended i := by
  rcases h with hhand | ⟨hon, hhas⟩
  · refine .inl ?_
    rw [SocketSession.inHand, Bool.or_eq_true] at hhand ⊢
    rw [hreaders]
    exact hhand.imp_left hsubmit
  · refine .inr ⟨hsocket hon, ?_⟩
    rw [SocketSession.hasReader, hreaders, hreader]
    exact hhas

theorem inHand_mono (h : s.inHand i = true)
    (hsubmit : s.submitting i = true → s'.submitting i = true) (hreaders : s.readers ⊆ s'.readers) :
    s'.inHand i = true := by
  simp only [SocketSession.inHand, Bool.or_eq_true, any_eq_true] at h ⊢
  rcases h with h | ⟨x, hx, hhandles⟩
  · exact .inl (hsubmit h)
  · exact .inr ⟨x, hreaders hx, hhandles⟩

section Readers

variable {k : ℕ} {x : ℕ × SocketReaderPhase} {rphase : SocketReaderPhase}

theorem hasReader_setReader : (s.setReader k rphase).hasReader = s.hasReader := by
  simp only [SocketSession.hasReader, SocketSession.setReader, updateWhere, any_map]
  congr 1
  funext y
  by_cases hy : y.1 = k <;> simp [hy]

theorem Attended.setReader (hu : Unique Prod.fst s.readers)
    (hx : Table.lookup Prod.fst s.readers k = some x) (h : s.Attended i)
    (hhandles : x.2.handles i = true → rphase.handles i = true) :
    (s.setReader k rphase).Attended i := by
  rcases h with hhand | ⟨hon, hhas⟩
  · refine .inl ?_
    simp only [SocketSession.inHand, Bool.or_eq_true, any_eq_true] at hhand ⊢
    rcases hhand with hsubmit | ⟨y, hy, hyhandles⟩
    · exact .inl hsubmit
    · refine .inr ⟨if y.1 = k then (y.1, rphase) else y, ?_, ?_⟩
      · refine mem_updateWhere.mpr ⟨y, hy, ?_⟩
        by_cases hk : y.1 = k <;> simp [hk]
      · split
        · next hk =>
          have hyx : y = x :=
            hu.eq_of_key_eq hy (mem_of_lookup hx) (hk.trans (key_of_lookup hx).symm)
          exact hhandles (hyx ▸ hyhandles)
        · exact hyhandles
  · refine .inr ⟨hon, ?_⟩
    rw [hasReader_setReader]
    exact hhas

theorem attended_of_handles (hx : Table.lookup Prod.fst s.readers k = some x)
    (hhandles : rphase.handles i = true) : (s.setReader k rphase).Attended i := by
  refine .inl ?_
  simp only [SocketSession.inHand, Bool.or_eq_true, any_eq_true]
  refine .inr ⟨(x.1, rphase), ?_, hhandles⟩
  refine mem_updateWhere.mpr ⟨x, mem_of_lookup hx, ?_⟩
  simp [key_of_lookup hx]

end Readers

end SocketSession

/-! ## The invariant -/

structure SocketSession.Relayed (s : SocketSession) : Prop where
  unique : Unique Prod.fst s.readers
  opened : ∀ x ∈ s.readers, x.1 < s.sockets
  served : NoOrphans s

theorem newSocketSession_relayed : newSocketSession.Relayed where
  unique := nodup_singleton _
  opened := by
    intro x hx
    rw [mem_singleton.mp hx]
    exact Nat.zero_lt_one
  served := nofun

namespace SocketSession.Relayed

variable {queueLimit : ℕ} {s s' : SocketSession} {a : SocketAct} {t : Submit} {id : ℕ}

theorem ofReaders (h : s.Relayed) (hreaders : s'.readers = s.readers)
    (hsockets : s'.sockets = s.sockets) (hserved : NoOrphans s') : s'.Relayed where
  unique := by rw [hreaders]; exact h.unique
  opened := by rw [hreaders, hsockets]; exact h.opened
  served := hserved

variable {k : ℕ} {phase : SubmitPhase}

theorem endReader (h : s.Relayed) (hreaders : s'.readers = s.readers.filter (·.1 ≠ k))
    (hsockets : s'.sockets = s.sockets) (hserved : NoOrphans s') : s'.Relayed where
  unique := by
    rw [hreaders]
    exact h.unique.sublist (filter_sublist.map _)
  opened x hx := by
    rw [hreaders] at hx
    rw [hsockets]
    exact h.opened x (mem_of_mem_filter hx)
  served := hserved

theorem restart (h : s.Relayed) (hreaders : s'.readers = (s.sockets, .receiving) :: s.readers)
    (hsockets : s'.sockets = s.sockets + 1) (hserved : NoOrphans s') : s'.Relayed where
  unique := by
    rw [hreaders]
    refine nodup_cons.mpr ⟨fun hmem => ?_, h.unique⟩
    obtain ⟨x, hx, hkey⟩ := mem_map.mp hmem
    exact absurd (h.opened x hx) (by rw [hkey]; exact Nat.lt_irrefl _)
  opened x hx := by
    rw [hreaders] at hx
    rw [hsockets]
    rcases mem_cons.mp hx with rfl | hx
    · exact Nat.lt_succ_self _
    · exact Nat.lt_succ_of_lt (h.opened x hx)
  served := hserved

theorem setReader {phase : SocketReaderPhase} (h : s.Relayed)
    (hreaders : s'.readers = (s.setReader k phase).readers) (hsockets : s.sockets ≤ s'.sockets)
    (hserved : NoOrphans s') : s'.Relayed where
  unique := by
    rw [hreaders]
    exact h.unique.update fun _ => rfl
  opened x hx := by
    rw [hreaders] at hx
    obtain ⟨y, hy, rfl⟩ := mem_updateWhere.mp hx
    have hlt := h.opened y hy
    split
    all_goals exact Nat.lt_of_lt_of_le hlt hsockets
  served := hserved

/-! ### Submits -/

theorem keep (h : s.Relayed) (hreaders : s'.readers = s.readers) (hreader : s'.reader = s.reader)
    (hsockets : s'.sockets = s.sockets) (hsocket : s'.socket = s.socket) (hsent : s'.sent = s.sent)
    (hpending : ∀ r ∈ s'.pending, ∃ q ∈ s.pending, q.requestId = r.requestId ∧
      (s.submitting r.requestId = true → s'.submitting r.requestId = true)) : s'.Relayed := by
  refine h.ofReaders hreaders hsockets fun r hr => ?_
  obtain ⟨q, hq, hid, hsubmit⟩ := hpending r hr
  have hattended := h.served q hq
  rw [hid] at hattended
  refine hattended.mono hsubmit hreaders hreader fun hon => ?_
  rw [SocketSession.onSocket, hsent, hsocket]
  exact hon

theorem cleanup (h : s.Relayed) : ((s.endSubmit id).cleanup id).Relayed := by
  have hkept : ∀ u : SocketSession, u.submits = (s.endSubmit id).submits →
      u.readers = s.readers → u.reader = s.reader → u.sockets = s.sockets → u.socket = s.socket →
      u.sent = s.sent → (∀ r ∈ u.pending, r ∈ s.pending ∧ r.requestId ≠ id) → u.Relayed := by
    intro u hsubmits hreaders hreader hsockets hsocket hsent hpending
    refine h.keep hreaders hreader hsockets hsocket hsent fun r hr => ?_
    obtain ⟨hmem, hne⟩ := hpending r hr
    refine ⟨r, hmem, rfl, fun hsubmit => ?_⟩
    have heq : u.submitting r.requestId = (s.endSubmit id).submitting r.requestId := by
      rw [SocketSession.submitting, SocketSession.submit, hsubmits]
      rfl
    rw [heq, SocketSession.submitting_endSubmit_of_ne hne]
    exact hsubmit
  unfold SocketSession.cleanup
  split
  · next hnone =>
    exact hkept _ rfl rfl rfl rfl rfl rfl fun r hr =>
      ⟨hr, lookup_eq_none_iff.mp hnone r hr⟩
  · next q hsome =>
    obtain rfl : q.requestId = id := key_of_lookup hsome
    exact hkept _ rfl rfl rfl rfl rfl rfl fun r hr => mem_removeRequest.mp hr

theorem ofFlags (h : s.Relayed) {closed prewarmed : Bool} :
    SocketSession.Relayed { s with closed := closed, prewarmed := prewarmed } :=
  h.keep rfl rfl rfl rfl rfl fun r hr => ⟨r, hr, rfl, fun hsubmit => hsubmit⟩

theorem record (h : s.Relayed) (hhas : s.hasReader = true) (hreaders : s'.readers = s.readers)
    (hreader : s'.reader = s.reader) (hsockets : s'.sockets = s.sockets)
    (hsocket : s'.socket = s.socket) (hpending : s'.pending = s.pending)
    (hsent : s'.sent = (s.record id).sent)
    (hsubmit : ∀ i, i ≠ id → s.submitting i = true → s'.submitting i = true) : s'.Relayed := by
  have hon : ∀ i, s'.onSocket i = (s.record id).onSocket i := by
    intro i
    rw [SocketSession.onSocket, hsent, hsocket]
    rfl
  refine h.ofReaders hreaders hsockets fun r hr => ?_
  by_cases hid : r.requestId = id
  · refine .inr ⟨?_, ?_⟩
    · rw [hon, hid]
      exact SocketSession.onSocket_record
    · rw [SocketSession.hasReader, hreaders, hreader]
      exact hhas
  · refine (h.served r (hpending ▸ hr)).mono (hsubmit _ hid) hreaders hreader fun hold => ?_
    rw [hon, SocketSession.onSocket_record_of_ne hid]
    exact hold

theorem startReconnect (h : s.Relayed) (hreaders : s'.readers = s.readers.filter (·.1 ≠ s.reader))
    (hsockets : s'.sockets = s.sockets) (hpending : s'.pending = s.pending)
    (hall : ∀ r ∈ s.pending, s'.submitting r.requestId = true) : s'.Relayed := by
  refine h.endReader hreaders hsockets fun r hr => .inl ?_
  exact SocketSession.inHand_of_submitting (hall r (hpending ▸ hr))

theorem kept_of_ne {i : ℕ} (hne : i ≠ id) (h : s.submitting i = true) :
    (s.setPhase id phase).submitting i = true ∧ (s.endSubmit id).submitting i = true :=
  ⟨(SocketSession.submitting_setPhase_of_ne hne).trans h,
    (SocketSession.submitting_endSubmit_of_ne hne).trans h⟩

theorem kept_of_holds (ht : s.submit id = some t) (hphase : phase.holds = true) (i : ℕ)
    (h : s.submitting i = true) : (s.setPhase id phase).submitting i = true := by
  by_cases hne : i = id
  · rw [hne, SocketSession.submitting_setPhase ht, hphase]
  · exact (kept_of_ne hne h).1

theorem goOn {count permits : ℕ} (h : s.Relayed) (ht : s.submit id = some t)
    (hphase : t.phase.holds = false) : SocketSession.Relayed { s.setPhase id phase with
      queuedRequestCount := count, gatePermits := permits } :=
  h.keep rfl rfl rfl rfl rfl fun r hr => ⟨r, hr, rfl, fun hsubmit =>
    (kept_of_ne (SocketSession.ne_of_submitting ht hphase hsubmit) hsubmit).1⟩

theorem endSubmit {count permits : ℕ} {prewarmed : Bool} (h : s.Relayed) (ht : s.submit id = some t)
    (hfree : t.phase.holds = false ∨ ∀ r ∈ s.pending, r.requestId ≠ id) :
    SocketSession.Relayed { s.endSubmit id with
      queuedRequestCount := count, gatePermits := permits, prewarmed := prewarmed } := by
  refine h.keep rfl rfl rfl rfl rfl fun r hr => ⟨r, hr, rfl, fun hsubmit => ?_⟩
  rcases hfree with hphase | hnone
  · exact (@kept_of_ne s id .sending _ (SocketSession.ne_of_submitting ht hphase hsubmit) hsubmit).2
  · exact (@kept_of_ne s id .sending _ (hnone r hr) hsubmit).2

theorem append (h : s.Relayed) (ht : s.submit id = some t) :
    SocketSession.Relayed { s.setPhase id .sending with
      pending := s.pending ++ [{ t.request with gateAcquired := true }] } := by
  refine h.ofReaders rfl rfl fun r hr => ?_
  rcases mem_append.mp hr with hr | hr
  · exact (h.served r hr).mono (kept_of_holds ht rfl _) rfl rfl fun hon => hon
  · have hkey : t.requestId = id := key_of_lookup ht
    have hid : r.requestId = id := by
      rw [mem_singleton.mp hr]
      exact hkey
    refine .inl (SocketSession.inHand_of_submitting ?_)
    rw [hid]
    exact SocketSession.submitting_setPhase ht

theorem text {e : UpstreamEvent} (h : s.Relayed) : (s.text e).Relayed := by
  refine h.keep rfl rfl rfl rfl rfl fun r hr => ?_
  obtain ⟨q, hq, hid⟩ := exists_mem_of_dequeAfter hr
  exact ⟨q, hq, hid, fun hsubmit => hsubmit⟩

theorem readerResent {x : ℕ × SocketReaderPhase} (h : s.Relayed) (hhas : s.hasReader = true)
    (hx : Table.lookup Prod.fst s.readers k = some x) (hphase : x.2 = .resending id) :
    ((s.record id).setReader k .receiving).Relayed := by
  have hrecord : (s.record id).Relayed :=
    h.record hhas rfl rfl rfl rfl rfl rfl fun _ _ hsubmit => hsubmit
  refine h.setReader rfl (Nat.le_refl _) fun r hr => ?_
  by_cases hid : r.requestId = id
  · refine .inr ⟨?_, ?_⟩
    · rw [hid]
      exact SocketSession.onSocket_record
    · rw [SocketSession.hasReader_setReader]
      exact hhas
  · refine SocketSession.Attended.setReader h.unique hx (hrecord.served r hr) fun hhandles => ?_
    rw [hphase] at hhandles
    exact absurd (of_decide_eq_true hhandles).symm hid

/-- **Every step that meets the condition keeps the invariant.** -/
theorem step (h : s.Relayed) (hok : KeepsUpstream s a)
    (hs : socketStep queueLimit s a = some s') : s'.Relayed := by
  cases SocketStep.of_step hs with
  | arrive =>
    exact h.keep rfl rfl rfl rfl rfl fun q hq => ⟨q, hq, rfl, SocketSession.submitting_append rfl⟩
  | arriveClosed _ _ hclosed =>
    exact h.startReconnect rfl rfl rfl fun q hq =>
      SocketSession.submitting_append rfl (hok hclosed q hq)
  | prewarm =>
    exact h.keep rfl rfl rfl rfl rfl fun q hq => ⟨q, hq, rfl, SocketSession.submitting_append rfl⟩
  | detach =>
    exact h.keep rfl rfl rfl rfl rfl fun q hq =>
      ⟨q, (mem_removeRequest.mp hq).1, rfl, fun hsubmit => hsubmit⟩
  | close => exact h.startReconnect rfl rfl rfl hok
  | reopened ht hphase =>
    refine h.restart rfl rfl fun r hr => .inl ?_
    refine SocketSession.inHand_mono (hok r hr) (fun hsubmit => ?_) (subset_cons_self _ _)
    exact (kept_of_ne (SocketSession.ne_of_submitting ht (by rw [hphase]; rfl) hsubmit) hsubmit).1
  | refuse ht hphase =>
    refine h.endSubmit ht (.inl ?_)
    rcases hphase with hphase | hphase <;> rw [hphase] <;> rfl
  | enter ht hphase => exact h.goOn ht (by rw [hphase]; rfl)
  | acquire ht hphase => exact h.goOn ht (by rw [hphase]; rfl)
  | leave ht hphase =>
    refine h.endSubmit ht (.inl ?_)
    rcases hphase with hphase | hphase <;> rw [hphase] <;> rfl
  | leavePrewarm ht hphase =>
    refine h.endSubmit ht (.inl ?_)
    rcases hphase with hphase | hphase <;> rw [hphase] <;> rfl
  | append ht => exact h.append ht
  | sendPrewarm =>
    exact h.record hok rfl rfl rfl rfl rfl rfl fun i hne hsubmit => (kept_of_ne hne hsubmit).1
  | send _ _ ha =>
    have hhas : s.hasReader = true := by rcases ha with rfl | rfl <;> exact hok
    exact h.record hhas rfl rfl rfl rfl rfl rfl fun i hne hsubmit =>
      (@kept_of_ne s _ .sending _ hne hsubmit).2
  | retry ht _ hclient hfirst =>
    obtain ⟨hprevious, hreplayed⟩ := not_or.mp hfirst
    refine h.startReconnect rfl rfl rfl fun r hr => kept_of_holds ht rfl _ (hok ?_ r hr)
    simp [SocketSession.retries, ht, hclient, hprevious, hreplayed]
  | reconnected ht =>
    refine h.restart rfl rfl fun r hr => .inl ?_
    exact SocketSession.inHand_mono (hok r hr) (kept_of_holds ht rfl _) (subset_cons_self _ _)
  | cleanup => exact h.cleanup.ofFlags
  | interrupt ht _ hleft =>
    refine h.endSubmit ht (hok.symm.imp_left fun hphase => ?_)
    rw [ht] at hphase
    -- what the condition leaves is a prewarm that reads its queue
    rcases (by simpa using hphase : _ ∨ _) with hreading | hsending
    · rw [hreading]
      rfl
    · exact absurd hsending hleft
  | text => exact h.text
  | giveUp hx =>
    exact h.setReader rfl (Nat.le_refl _) fun r _ => SocketSession.attended_of_handles hx rfl
  | lost hx hphase =>
    refine h.setReader rfl (Nat.le_refl _) fun q hq => ?_
    refine SocketSession.Attended.setReader h.unique hx (h.served q hq) fun hhandles => ?_
    rw [hphase] at hhandles
    cases hhandles
  | readerReconnected hx hphase =>
    refine h.setReader rfl (Nat.le_succ _) fun r hr => ?_
    have hinHand : s.connected.Attended r.requestId := .inl (hok r hr)
    refine SocketSession.Attended.setReader h.unique hx hinHand fun hhandles => ?_
    rw [hphase] at hhandles
    exact hhandles
  | readerResent hx hphase => exact h.readerResent hok hx hphase
  | reset hx =>
    refine h.setReader rfl (Nat.le_refl _) fun r _ => ?_
    have hfails : SocketReaderPhase.failing.handles r.requestId = true := rfl
    exact SocketSession.attended_of_handles hx hfails
  | failAll => exact h.setReader rfl (Nat.le_refl _) nofun
  | endReader hb =>
    have hall : ∀ r ∈ s.pending, s.submitting r.requestId = true := by
      rcases hb with rfl | rfl <;> exact hok
    exact h.endReader rfl rfl fun r hr => .inl (SocketSession.inHand_of_submitting (hall r hr))

end SocketSession.Relayed

/-! ## Runs -/

/-- **No bridge request is orphaned** in runs whose steps keep to `KeepsUpstream`. -/
theorem no_orphans {queueLimit : ℕ} {acts : List SocketAct} {t : SocketSession}
    (hok : Along (socketStep queueLimit) KeepsUpstream acts newSocketSession)
    (hrun : run (socketStep queueLimit) acts newSocketSession = some t) : NoOrphans t := by
  have ht : t.Relayed :=
    run_invariant_along (fun h hok hs => h.step hok hs) newSocketSession_relayed hok hrun
  exact ht.served

def retryActs : List SocketAct :=
  [.reader 0 .lost, .reader 0 .reconnected, .reader 0 .resent]

theorem no_orphans_retry :
    ∃ t, run (socketStep 8) (enterActs 0 ++ sendActs 0 ++ retryActs) newSocketSession = some t ∧
      Along (socketStep 8) KeepsUpstream (enterActs 0 ++ sendActs 0 ++ retryActs)
        newSocketSession ∧ t.socket = 1 ∧ t.pending.length = 1 ∧ NoOrphans t := by
  have hrun : run (socketStep 8) (enterActs 0 ++ sendActs 0 ++ retryActs) newSocketSession =
    some _ := rfl
  have hok : Along (socketStep 8) KeepsUpstream (enterActs 0 ++ sendActs 0 ++ retryActs)
    newSocketSession := by decide
  exact ⟨_, hrun, hok, by decide, by decide, no_orphans hok hrun⟩

/-- Request 0 is created when the upstream is lost, and request 1 is not: request 1 is sent again,
and request 0 waits for the old socket. -/
theorem retry_orphans_created_request :
    ∃ t, run (socketStep 8) (enterActs 0 ++ sendActs 0 ++ readActs .created "resp_0" ++
        enterActs 1 ++ sendActs 1 ++ retryActs) newSocketSession = some t ∧
      t.pending.map RequestState.requestId = [0, 1] ∧ t.onSocket 0 = false ∧ t.inHand 0 = false ∧
      ¬NoOrphans t := by
  refine ⟨_, rfl, by decide, by decide, by decide, fun h => ?_⟩
  rcases h _ mem_cons_self with hhand | ⟨hon, -⟩
  · revert hhand
    decide
  · revert hon
    decide

end CodexOctopus

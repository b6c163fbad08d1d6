import Mdevolved.Policy.Completion

/-!
# How Schedules Take Turns

A pass takes on as many schedules as fit into a page, those first whose earlier clock
shows the oldest window. A schedule that a pass cannot serve keeps its window, and so
it keeps its place in front of the others. Requests of checkpoints are never completed,
so a page of schedules that wait for one is a page that no other schedule ever gets
into.

What lets every schedule have its turn is that each page has room: where a schedule
that could be served is left out, one that was taken leaves the front. The number of
schedules in front of one that waits then falls with every pass.

## Main definitions

* `Continuable`: A project has a checkpoint that a drill can be of.
* `Servable`: A clock that a pass can serve.
* `Beside`: What a pass leaves of the clocks that it does not serve.
* `passStep`: The tables after a pass.
* `Goes`: A request of a pass that nothing stands in the way of.

## Theorems

* `exec_beside`: What a request of a pass leaves of other clocks.
* `createScheduledRequest_made`: A request is made exactly where a clock can be served.
* `pass_serves`: The clocks a pass serves.
* `schedules_served`: Every schedule has its turn, along passes whose pages have room.
* `fullPage_starves`: A page of schedules that wait for a request that is open.
-/

namespace Mdevolved.Policy

open Batch Process

/-! ## Clocks that can be served -/

/-- A project has a checkpoint that a drill can be of: a lead has acknowledged it here, and
    its context is valid. -/
def Continuable (db : PolicyDb) (projectId : String) : Prop :=
  ∃ p ∈ latestPoint db projectId, p.restoredAt = none ∧ p.sourceLeaseId ≠ none ∧
    contextValid db projectId p.workItemId p.workPacketId p.projectVersionId
      p.workItemVersionId = true

/-- A clock that a pass can serve: there is something to make a request of, and the window
    has its request or none of the clock is open. -/
structure Servable (db : PolicyDb) (s : ScheduleRow) (kind : RequestKind) : Prop where
  source : kind = .continuityDrill → Continuable db s.projectId
  window : Requested db (s.scheduleId, kind, s.next kind) ∨ ¬ HasOpen db s.scheduleId kind

instance (db : PolicyDb) (projectId : String) : Decidable (Continuable db projectId) := by
  unfold Continuable
  infer_instance

instance (db : PolicyDb) (k : Window) : Decidable (Requested db k) :=
  inferInstanceAs (Decidable (∃ r ∈ db.requests, r.key = k))

instance (db : PolicyDb) (id : String) (kind : RequestKind) : Decidable (HasOpen db id kind) :=
  inferInstanceAs (Decidable (∃ r ∈ db.requests, r.scheduleId = id ∧ r.requestKind = kind ∧
    r.isOpen = true))

instance (db : PolicyDb) (s : ScheduleRow) (kind : RequestKind) : Decidable (Servable db s kind) :=
  decidable_of_iff (_ ∧ _) ⟨fun h => ⟨h.1, h.2⟩, fun h => ⟨h.1, h.2⟩⟩

/-! ## What a pass leaves -/

/-- A schedule may only have been moved on, and is as it was unless it is among those that
    are. -/
structure Forward (N : String → Prop) (s t : ScheduleRow) : Prop where
  id : t.scheduleId = s.scheduleId
  intervals : ∀ kind, t.interval kind = s.interval kind
  moved : ∀ kind, s.next kind ≤ t.next kind
  same : ¬ N s.scheduleId → t = s

theorem forward_refl (N : String → Prop) (s : ScheduleRow) : Forward N s s :=
  ⟨rfl, fun _ => rfl, fun _ => le_refl _, fun _ => rfl⟩

theorem forward_trans {N : String → Prop} (s t u : ScheduleRow) (h : Forward N s t)
    (h' : Forward N t u) : Forward N s u := by
  refine ⟨h'.id.trans h.id, fun kind => (h'.intervals kind).trans (h.intervals kind),
    fun kind => (h.moved kind).trans (h'.moved kind), fun hsame => ?_⟩
  rw [h'.same (h.id.symm ▸ hsame), h.same hsame]

/-- What is left beside the clocks `M` that requests are made of and the schedules `N` that
    are moved on: other schedules and requests, and what requests are made of. -/
structure Beside (M : String → RequestKind → Prop) (N : String → Prop) (s t : PolicyDb) :
    Prop where
  schedules : ∃ f : ScheduleRow → ScheduleRow, t.schedules = s.schedules.map f ∧
    ∀ r, Forward N r (f r)
  requests : ∀ r, ¬ M r.scheduleId r.requestKind → (r ∈ t.requests ↔ r ∈ s.requests)
  points : t.points = s.points
  projects : t.projects = s.projects
  workItems : t.workItems = s.workItems
  packets : t.collaborationRecords = s.collaborationRecords

section Beside

variable {M : String → RequestKind → Prop} {N : String → Prop}

theorem beside_same (s t : PolicyDb) (hschedules : t.schedules = s.schedules)
    (hrequests : ∀ r, ¬ M r.scheduleId r.requestKind → (r ∈ t.requests ↔ r ∈ s.requests))
    (hpoints : t.points = s.points) (hprojects : t.projects = s.projects)
    (hitems : t.workItems = s.workItems)
    (hpackets : t.collaborationRecords = s.collaborationRecords) : Beside M N s t :=
  ⟨⟨id, hschedules.trans (List.map_id _).symm, forward_refl N⟩, hrequests, hpoints, hprojects,
    hitems, hpackets⟩

theorem beside_refl (s : PolicyDb) : Beside M N s s :=
  beside_same s s rfl (fun _ _ => Iff.rfl) rfl rfl rfl rfl

theorem beside_trans (s t u : PolicyDb) (h : Beside M N s t) (h' : Beside M N t u) : Beside M N s u := by
  rcases h.schedules with ⟨f, hf, hforward⟩
  rcases h'.schedules with ⟨g, hg, hforward'⟩
  refine ⟨⟨g ∘ f, ?_, fun r => forward_trans r (f r) _ (hforward r) (hforward' (f r))⟩,
    fun r hr => (h'.requests r hr).trans (h.requests r hr), h'.points.trans h.points,
    h'.projects.trans h.projects, h'.workItems.trans h.workItems, h'.packets.trans h.packets⟩
  rw [hg, hf, List.map_map]

/-- What is beside some clocks is beside more of them. -/
theorem beside_mono {M' : String → RequestKind → Prop} {N' : String → Prop}
    (hM : ∀ id kind, M id kind → M' id kind) (hN : ∀ id, N id → N' id) (s t : PolicyDb)
    (h : Beside M N s t) : Beside M' N' s t := by
  rcases h.schedules with ⟨f, hf, hforward⟩
  refine ⟨⟨f, hf, fun r => ⟨(hforward r).id, (hforward r).intervals, (hforward r).moved,
    fun hsame => (hforward r).same (fun hid => hsame (hN _ hid))⟩⟩,
    fun r hr => h.requests r (fun hk => hr (hM _ _ hk)), h.points, h.projects, h.workItems, h.packets⟩

/-- A schedule that is not served stays as it is. -/
theorem beside_mem (s t : PolicyDb) (h : Beside M N s t) (r : ScheduleRow) (hr : r ∈ s.schedules)
    (hother : ¬ N r.scheduleId) : r ∈ t.schedules := by
  rcases h.schedules with ⟨f, hf, hforward⟩
  rw [hf]
  exact List.mem_map.mpr ⟨r, hr, (hforward r).same hother⟩

theorem beside_ids (s t : PolicyDb) (h : Beside M N s t) :
    t.schedules.map ScheduleRow.scheduleId = s.schedules.map ScheduleRow.scheduleId := by
  rcases h.schedules with ⟨f, hf, hforward⟩
  rw [hf, List.map_map]
  exact List.map_congr_left (fun r _ => (hforward r).id)

/-- A clock that is not served can be served as it could before. -/
theorem beside_servable (s t : PolicyDb) (h : Beside M N s t) (r : ScheduleRow) (kind : RequestKind)
    (hother : ¬ M r.scheduleId kind) : Servable t r kind ↔ Servable s r kind := by
  have hcontinuable : Continuable t r.projectId ↔ Continuable s r.projectId := by
    unfold Continuable latestPoint contextValid
    rw [h.points, h.projects, h.workItems, h.packets]
  have hrequested : Requested t (r.scheduleId, kind, r.next kind) ↔
      Requested s (r.scheduleId, kind, r.next kind) := by
    constructor
    · rintro ⟨q, hq, hkey⟩
      refine ⟨q, (h.requests q ?_).mp hq, hkey⟩
      rw [show q.scheduleId = r.scheduleId from congrArg (fun k => k.1) hkey,
        show q.requestKind = kind from congrArg (fun k => k.2.1) hkey]
      exact hother
    · rintro ⟨q, hq, hkey⟩
      refine ⟨q, (h.requests q ?_).mpr hq, hkey⟩
      rw [show q.scheduleId = r.scheduleId from congrArg (fun k => k.1) hkey,
        show q.requestKind = kind from congrArg (fun k => k.2.1) hkey]
      exact hother
  have hopen : HasOpen t r.scheduleId kind ↔ HasOpen s r.scheduleId kind := by
    constructor
    · rintro ⟨q, hq, hid, hkind, hstate⟩
      exact ⟨q, (h.requests q (hid ▸ hkind ▸ hother)).mp hq, hid, hkind, hstate⟩
    · rintro ⟨q, hq, hid, hkind, hstate⟩
      exact ⟨q, (h.requests q (hid ▸ hkind ▸ hother)).mpr hq, hid, hkind, hstate⟩
  constructor
  · exact fun hs => ⟨fun hk => hcontinuable.mp (hs.source hk),
      hs.window.imp hrequested.mp (fun hno hyes => hno (hopen.mpr hyes))⟩
  · exact fun hs => ⟨fun hk => hcontinuable.mpr (hs.source hk),
      hs.window.imp hrequested.mpr (fun hno hyes => hno (hopen.mp hyes))⟩

/-- What a request of a pass is about. -/
def Concerns (M : String → RequestKind → Prop) (N : String → Prop) : PolicyOp → Prop
  | .insertRequest b => ∀ r ∈ b.evidence.requestRow, M r.scheduleId r.requestKind
  | .insertReport b => b.evidence.requestRow = none
  | .advance as => ∀ a ∈ as, N a.scheduleId ∧ a.window ≤ a.value
  | .completeDrill _ | .activate _ | .surrounding _ => False
  | _ => True

theorem concerns_reads (op : PolicyOp) (h : op.reads = true) : Concerns M N op := by
  cases op with
  | insertRequest _ | insertReport _ | advance _ | completeDrill _ | activate _ | surrounding _ =>
      cases h
  | _ => exact trivial

theorem advance_beside (a : Advance) (db : PolicyDb) (hN : N a.scheduleId)
    (hvalue : a.window ≤ a.value) : Beside M N db (a.write.update db) := by
  refine ⟨⟨fun s => if s.scheduleId = a.scheduleId && s.next a.kind = a.window then a.moves s else s,
    rfl, fun s => ?_⟩, fun _ _ => Iff.rfl, rfl, rfl, rfl, rfl⟩
  dsimp only
  by_cases hp : (decide (s.scheduleId = a.scheduleId) && decide (s.next a.kind = a.window)) = true
  · rw [if_pos hp]
    rw [Bool.and_eq_true, decide_eq_true_eq, decide_eq_true_eq] at hp
    refine ⟨a.moves_scheduleId s, a.moves_interval s, fun kind => ?_, fun hother => ?_⟩
    · rw [a.moves_next]
      by_cases hkind : kind = a.kind
      · rw [hkind, setNext_next_self, hp.2]
        exact hvalue
      · rw [setNext_next_of_ne s a.kind kind a.value hkind]
    · exact absurd (hp.1.symm ▸ hN) hother
  · rw [if_neg hp]
    exact forward_refl N s

theorem insertOrIgnore_mem (rows : List RequestRow) (r r' : RequestRow) (hne : r' ≠ r) :
    r' ∈ insertOrIgnore rows r ↔ r' ∈ rows := by
  unfold insertOrIgnore
  split
  · rw [List.mem_append, List.mem_singleton]
    exact ⟨fun h => h.resolve_right hne, Or.inl⟩
  · exact Iff.rfl

theorem putObject_beside (object : StoredObject) (message : String) (db : PolicyDb) :
    Beside M N db ((putObject object message).update db) := by
  unfold putObject
  dsimp only
  split
  · exact beside_refl db
  · exact beside_same db _ rfl (fun _ _ => Iff.rfl) rfl rfl rfl rfl

/-- A request of a pass leaves the clocks it is not about. -/
theorem exec_beside (op : PolicyOp) (w : Outside) (db : PolicyDb) (h : Concerns M N op) :
    Beside M N db (exec op w db).2 := by
  rcases policy.exec_cases op w db with hsame | ⟨-, hwritten⟩
  · rw [hsame]
    exact beside_refl db
  · rw [hwritten]
    cases op with
    | completeDrill _ | activate _ | surrounding _ => exact absurd h id
    | insertRequest b =>
        refine beside_same db _ rfl (fun r hr => ?_) rfl rfl rfl rfl
        change r ∈ b.evidence.requestRow.elim db.requests (insertOrIgnore db.requests) ↔ _
        cases hrow : b.evidence.requestRow with
        | none => exact Iff.rfl
        | some q =>
            refine insertOrIgnore_mem db.requests q r (fun heq => hr ?_)
            rw [heq]
            exact h q hrow
    | insertReport b =>
        refine beside_same db _ rfl (fun r _ => ?_) rfl rfl rfl rfl
        change r ∈ b.evidence.requestRow.elim db.requests (insertOrIgnore db.requests) ↔ _
        rw [show b.evidence.requestRow = none from h]
        exact Iff.rfl
    | advance as =>
        change Beside M N db (written (as.map Advance.write) db)
        clear hwritten
        induction as generalizing db with
        | nil => exact beside_refl db
        | cons a as ih =>
            have ha := h a List.mem_cons_self
            exact beside_trans db (a.write.update db) _ (advance_beside a db ha.1 ha.2)
              (ih (a.write.update db) (fun b hb => h b (List.mem_cons_of_mem a hb)))
    | putRecord object => exact putObject_beside object _ db
    | touchClock _ _ => exact beside_same db _ rfl (fun _ _ => Iff.rfl) rfl rfl rfl rfl
    | _ => exact beside_refl db

end Beside

/-! ## A pass that nothing stands in the way of -/

/-- The project whose last checkpoint a request reads. -/
def PolicyOp.readsLatest : PolicyOp → Option String
  | .readLatestPoint projectId => some projectId
  | _ => none

/-- A request of a pass that nothing stands in the way of: it is answered, no constraint
    refuses what it writes, and the body of the checkpoint that it reads is there. -/
structure Goes (format : PolicyFormat) (op : PolicyOp) (w : Outside) (db : PolicyDb) : Prop where
  answered : w.outcome = .answered
  admitted : Passes (policy.writes op w) db
  readable : ∀ projectId ∈ op.readsLatest, ∀ p ∈ latestPoint db projectId,
    (pointOf format p (db.objects.find? (fun o => o.key = p.bodyObjectKey))).isOk = true

instance (format : PolicyFormat) (op : PolicyOp) (w : Outside) (db : PolicyDb) :
    Decidable (Goes format op w db) :=
  decidable_of_iff (_ ∧ _ ∧ _) ⟨fun h => ⟨h.1, h.2.1, h.2.2⟩, fun h => ⟨h.1, h.2, h.3⟩⟩

/-- A function returns and leaves a fact, where nothing stands in its way. -/
abbrev Delivers (format : PolicyFormat) {α : Type} (Q : α → PolicyDb → Prop)
    (p : PolicyProcess α) (s : PolicyDb) : Prop :=
  p.Meets exec (Goes format) (fun _ => True) Eq (fun _ _ => True) (Interface.Yields Q) s

section Delivers

variable (format : PolicyFormat)

theorem read_delivers (op : PolicyOp) (r : op.Ret) (s : PolicyDb)
    (hwrites : ∀ w, policy.writes op w = []) (hanswer : ∀ w, policy.answer op w s = .ok r) :
    Delivers format (fun a t => a = r ∧ t = s ∧ ∃ w, Goes format op w s) (ask op) s :=
  Interface.yields_read op r s trivial (fun _ hw => hw.answered) hwrites (fun w _ => hanswer w)

theorem write_delivers (op : PolicyOp) (r : op.Ret) (s : PolicyDb)
    (hanswer : ∀ w, policy.answer op w s = .ok r) :
    Delivers format (fun a t => a = r ∧ ∃ w, t = written (policy.writes op w) s) (ask op) s := by
  refine meets_mono (fun _ _ h => h) (fun a t h => ?_) _ s
    (Interface.yields_request op r s trivial (fun _ hw => Goes.answered hw) (fun w _ => hanswer w)
      (fun _ hw => Goes.admitted hw))
  cases a with
  | error e => exact h
  | ok a =>
      rcases h with ⟨ha, w, -, ht⟩
      exact ⟨ha, w, ht⟩

/-- What a checkpoint was read as. -/
def SourceRead (db : PolicyDb) (input : ScheduledRequestInput)
    (sourcePoint : Option StoredContinuityPoint) : Prop :=
  input.kind = .continuityDrill →
    match latestPoint db input.schedule.projectId with
    | none => sourcePoint = none
    | some p => ∃ stored object, sourcePoint = some stored ∧ pointOf format p object = .ok stored

theorem readSourcePoint_delivers (input : ScheduledRequestInput) (s : PolicyDb) :
    Delivers format (fun sp t => t = s ∧ SourceRead format s input sp)
      (readSourcePoint format input) s := by
  unfold readSourcePoint SourceRead
  cases hkind : input.kind with
  | continuityPoint => exact ⟨rfl, nofun⟩
  | continuityDrill =>
      refine Interface.yields_then (read_delivers format (.readLatestPoint _) _ s
        (fun _ => rfl) (fun _ => rfl)) ?_
      rintro row? t ⟨rfl, heq, w, hgoes⟩
      rw [heq]
      have hreadable := hgoes.readable input.schedule.projectId rfl
      cases hlatest : latestPoint s input.schedule.projectId with
      | none => exact ⟨rfl, fun _ => rfl⟩
      | some p =>
          refine Interface.yields_then (read_delivers format (.getObject _) _ s
            (fun _ => rfl) (fun _ => rfl)) ?_
          rintro object u ⟨rfl, heq', -⟩
          rw [heq']
          have hbody := hreadable p hlatest
          cases hpoint : pointOf format p (s.objects.find? (fun o => o.key = p.bodyObjectKey)) with
          | error e =>
              rw [hpoint] at hbody
              cases hbody
          | ok stored =>
              refine Interface.yields_then (M := fun a t => a = stored ∧ t = s)
                (Interface.yields_ofExcept _ stored s rfl ⟨rfl, rfl⟩) ?_
              rintro _ v ⟨rfl, hv⟩
              exact ⟨hv, fun _ => ⟨_, _, rfl, hpoint⟩⟩

/-- A drill can be of a checkpoint exactly where the project can be continued. -/
theorem sourcePointValid_delivers (input : ScheduledRequestInput)
    (sourcePoint : Option StoredContinuityPoint) (s : PolicyDb)
    (hsource : SourceRead format s input sourcePoint) :
    Delivers format (fun valid t => t = s ∧ (valid = true ↔
        (input.kind = .continuityDrill → Continuable s input.schedule.projectId)))
      (sourcePointValid input sourcePoint) s := by
  unfold SourceRead at hsource
  unfold sourcePointValid
  cases hkind : input.kind with
  | continuityPoint => exact ⟨rfl, fun _ => nofun, fun _ => rfl⟩
  | continuityDrill =>
      specialize hsource hkind
      unfold Continuable
      cases hlatest : latestPoint s input.schedule.projectId with
      | none =>
          rw [hlatest] at hsource
          rw [hsource]
          refine ⟨rfl, nofun, fun h => ?_⟩
          rcases h rfl with ⟨p, hp, -⟩
          exact absurd hp (Option.not_mem_none p)
      | some p =>
          rw [hlatest] at hsource
          rcases hsource with ⟨stored, object, rfl, hpoint⟩
          rcases pointOf_ok p object stored hpoint with ⟨hmatches, -, hrestored, hlease⟩
          simp only [ContinuityPoint.matches, Bool.and_eq_true, decide_eq_true_eq] at hmatches
          rcases hmatches with ⟨⟨⟨⟨⟨⟨⟨⟨⟨-, -⟩, hversion⟩, hitem⟩, hitemVersion⟩, -⟩, hpacket⟩, -⟩, -⟩, -⟩
          refine meets_ite (fun hnot => ⟨rfl, nofun, fun h => ?_⟩) (fun husable => ?_)
          · rcases h rfl with ⟨q, hq, hqrestored, hqlease, -⟩
            rw [← Option.some.inj hq] at hqrestored hqlease
            simp only [StoredContinuityPoint.usable, hrestored, hlease, hqrestored,
              Option.isNone_none, Bool.true_and, Bool.not_eq_true', Option.isSome_eq_false_iff,
              Option.isNone_iff_eq_none] at hnot
            exact absurd hnot hqlease
          · simp only [StoredContinuityPoint.usable, hrestored, hlease, Bool.not_eq_true',
              Bool.not_eq_false, Bool.and_eq_true, Option.isNone_iff_eq_none,
              Option.isSome_iff_ne_none] at husable
            refine meets_mono (fun _ _ h => h) (fun a t h => ?_) _ s (read_delivers format
              (.readContextValid ..) _ s (fun _ => rfl) (fun _ => rfl))
            cases a with
            | error e => exact h
            | ok a =>
                rcases h with ⟨rfl, rfl, -⟩
                rw [hversion, hitem, hitemVersion, hpacket]
                refine ⟨rfl, fun hvalid _ => ⟨p, rfl, husable.1, husable.2, hvalid⟩, fun h => ?_⟩
                rcases h rfl with ⟨q, hq, -, -, hvalid⟩
                rw [← Option.some.inj hq] at hvalid
                exact hvalid

/-- What passes the schema of evidence is not too large to be stored. -/
def PolicyFormat.Fits (format : PolicyFormat) : Prop :=
  ∀ e : OperationalEvidence, e.valid = true →
    format.byteLength (.operational (.evidence e)) ≤ maxOperationalRecordBytes

variable {format} (hfits : format.Fits)

include hfits

theorem prepare_delivers (e : OperationalEvidence) (hvalid : e.valid = true) (id : String)
    (s : PolicyDb) :
    Delivers format (fun _ _ => True) (preparePolicyOperationalRecord format (.evidence e) id) s := by
  unfold preparePolicyOperationalRecord
  rw [show PolicyOperationalRecord.valid (.evidence e) = true from hvalid, if_neg (by decide),
    if_neg (not_lt.mpr (hfits e hvalid))]
  refine Interface.yields_then (write_delivers format (.putRecord _) () s (fun _ => rfl)) ?_
  exact fun _ _ _ => trivial

theorem storeRequest_delivers (input : ScheduledRequestInput) (e : OperationalEvidence)
    (hvalid : e.valid = true) (sourcePoint : Option StoredContinuityPoint) (s : PolicyDb) :
    Delivers format (fun created _ => created = true) (storeRequest format input e sourcePoint) s := by
  refine Interface.yields_then (prepare_delivers hfits e hvalid _ s) (fun record t _ => ?_)
  refine Interface.yields_tryCatch _ _ t ?_
  refine Interface.yields_then (write_delivers format (.insertRequest _) () t (fun _ => rfl)) ?_
  exact fun _ _ _ => rfl

omit hfits in
theorem requestEvidence_valid (input : ScheduledRequestInput) (hnow : 0 ≤ input.now)
    (hdue : 0 ≤ input.dueAt) (hwindow : 0 ≤ input.scheduleWindow)
    (sourcePoint : Option StoredContinuityPoint) :
    (requestEvidence format input sourcePoint).valid = true := by
  have hretain : input.now ≤ input.now + requestRetentionSeconds := by
    unfold requestRetentionSeconds
    omega
  have hdetail : (requestEvidence format input sourcePoint).detail.valid = true := by
    unfold requestEvidence
    cases input.kind with
    | continuityPoint => simp only [EvidenceDetail.valid, hdue, hwindow, decide_true, Bool.and_true]
    | continuityDrill =>
        cases sourcePoint with
        | none => simp only [EvidenceDetail.valid, hdue, hwindow, decide_true, Bool.and_true]
        | some p => simp only [EvidenceDetail.valid, hdue, hwindow, decide_true, Bool.and_true]
  have hrequest : (requestEvidence format input sourcePoint).detail.request.isSome = true := by
    unfold requestEvidence
    cases input.kind with
    | continuityPoint => rfl
    | continuityDrill => cases sourcePoint <;> rfl
  unfold OperationalEvidence.valid
  rw [hdetail, hrequest]
  simp only [requestEvidence, hnow, hnow.trans hretain, hretain, decide_true, Bool.and_true]

/-- A request is made exactly where a clock can be served. -/
theorem createScheduledRequest_made (input : PassInput) (schedule : ScheduleRow)
    (kind : RequestKind) (hnow : 0 ≤ input.now) (hnext : 0 ≤ schedule.next kind) (s : PolicyDb) :
    Delivers format (fun created _ => created = true ↔ Servable s schedule kind)
      (createScheduledRequest format (input.request schedule kind)) s := by
  refine Interface.yields_then (readSourcePoint_delivers format _ s) ?_
  rintro sourcePoint t ⟨heq, hsource⟩
  rw [heq]
  refine Interface.yields_then (sourcePointValid_delivers format _ sourcePoint s hsource) ?_
  rintro valid t ⟨heq, hvalid⟩
  rw [heq]
  refine meets_ite (fun hnot => ⟨nofun, fun hs => ?_⟩) (fun hsome => ?_)
  · rw [hvalid.mpr hs.source] at hnot
    cases hnot
  · rw [Bool.not_eq_true', Bool.not_eq_false] at hsome
    have hevidence : (requestEvidence format (input.request schedule kind) sourcePoint).valid = true :=
      requestEvidence_valid _ hnow hnext hnext sourcePoint
    refine meets_ite (fun hnot => ?_) (fun _ => ?_)
    · rw [hevidence] at hnot
      cases hnot
    · refine Interface.yields_then (read_delivers format (.requestExists ..) _ s (fun _ => rfl)
        (fun _ => rfl)) ?_
      rintro already t ⟨hread, heq, -⟩
      rw [heq]
      have hexists : already = true ↔ Requested s (schedule.scheduleId, kind, schedule.next kind) := by
        rw [hread]
        exact requestExists_iff s _
      refine meets_ite (fun hthere => ⟨fun _ => ?_, fun _ => rfl⟩) (fun hnone => ?_)
      · exact ⟨hvalid.mp hsome, Or.inl (hexists.mp hthere)⟩
      · refine Interface.yields_then (read_delivers format (.requestOpen ..) _ s (fun _ => rfl)
          (fun _ => rfl)) ?_
        rintro overlapping t ⟨hread, heq, -⟩
        rw [heq]
        have hopen : overlapping = true ↔ HasOpen s schedule.scheduleId kind := by
          rw [hread]
          exact requestOpen_iff s _ _
        refine meets_ite (fun hthere => ⟨nofun, fun hs => ?_⟩) (fun hclosed => ?_)
        · exact absurd (hs.window.resolve_left (fun h => hnone (hexists.mpr h)))
            (not_not.mpr (hopen.mp hthere))
        · refine meets_mono (fun _ _ h => h) (fun a t h => ?_) _ s
            (storeRequest_delivers hfits _ _ hevidence sourcePoint s)
          cases a with
          | error e => exact h
          | ok created =>
              refine ⟨fun _ => ⟨hvalid.mp hsome, Or.inr (fun h => hclosed (hopen.mpr h))⟩, fun _ => h⟩

theorem serveClock_delivers (input : PassInput) (schedule : ScheduleRow) (kind : RequestKind)
    (hnow : 0 ≤ input.now) (hnext : 0 ≤ schedule.next kind) (s : PolicyDb) :
    Delivers format (fun as _ => (∀ a ∈ as, a = input.advance schedule kind) ∧
        (schedule.next kind ≤ input.scheduledTime → Servable s schedule kind →
          as = [input.advance schedule kind]))
      (serveClock format input schedule kind) s := by
  refine meets_ite (fun _ => ?_) (fun hnot => ?_)
  · refine Interface.yields_then
      (createScheduledRequest_made hfits input schedule kind hnow hnext s) (fun created t hmade => ?_)
    cases created with
    | false => exact ⟨fun a ha => absurd ha List.not_mem_nil, fun _ hs => nomatch hmade.mpr hs⟩
    | true => exact ⟨fun a ha => List.mem_singleton.mp ha, fun _ _ => rfl⟩
  · exact ⟨fun a ha => absurd ha List.not_mem_nil, fun hdue => absurd hdue hnot⟩

end Delivers

/-! ## The clocks of one schedule -/

/-- The clock of a schedule shows a window that comes after a time. -/
def After (scheduledTime : Int) (id : String) (kind : RequestKind) (db : PolicyDb) : Prop :=
  ∀ r ∈ db.schedules, r.scheduleId = id → scheduledTime < r.next kind

/-- The clocks of a schedule show the windows that were read, or ones after a time. -/
def Shown (scheduledTime : Int) (schedule : ScheduleRow) (db : PolicyDb) : Prop :=
  ∀ r ∈ db.schedules, r.scheduleId = schedule.scheduleId →
    ∀ kind, r.next kind = schedule.next kind ∨ scheduledTime < r.next kind

theorem after_beside {M : String → RequestKind → Prop} {N : String → Prop} (scheduledTime : Int)
    (id : String) (kind : RequestKind) (s t : PolicyDb) (h : Beside M N s t)
    (hs : After scheduledTime id kind s) : After scheduledTime id kind t := by
  rcases h.schedules with ⟨f, hf, hforward⟩
  intro r hr hid
  rw [hf] at hr
  rcases List.mem_map.mp hr with ⟨q, hq, rfl⟩
  exact (hs q hq ((hforward q).id.symm.trans hid)).trans_le ((hforward q).moved kind)

section Clocks

variable (input : PassInput) (schedule : ScheduleRow) (hpos : ∀ kind, 0 < schedule.interval kind)

include hpos

/-- A clock that is moved shows a window after the time of the pass. -/
theorem advance_after (kind : RequestKind) (db : PolicyDb)
    (hshown : Shown input.scheduledTime schedule db) :
    Shown input.scheduledTime schedule ((input.advance schedule kind).write.update db) ∧
      After input.scheduledTime schedule.scheduleId kind
        ((input.advance schedule kind).write.update db) := by
  have hvalue : input.scheduledTime < (input.advance schedule kind).value :=
    nextDueAfter_gt _ _ _ (hpos kind)
  have hrow : ∀ r ∈ ((input.advance schedule kind).write.update db).schedules,
      r.scheduleId = schedule.scheduleId → input.scheduledTime < r.next kind ∧
        ∀ kind', r.next kind' = schedule.next kind' ∨ input.scheduledTime < r.next kind' := by
    intro r hr hid
    rcases Table.mem_update _ _ db.schedules r hr with ⟨q, hq, ⟨-, rfl⟩ | ⟨hnot, rfl⟩⟩
    · have hqid : q.scheduleId = schedule.scheduleId :=
        ((input.advance schedule kind).moves_scheduleId q).symm.trans hid
      have hnext : ∀ kind', ((input.advance schedule kind).moves q).next kind' =
          (q.setNext kind (input.advance schedule kind).value).next kind' :=
        (input.advance schedule kind).moves_next q
      have hmoved : input.scheduledTime < ((input.advance schedule kind).moves q).next kind := by
        rw [hnext, setNext_next_self]
        exact hvalue
      refine ⟨hmoved, fun kind' => ?_⟩
      by_cases hkind : kind' = kind
      · rw [hkind]
        exact Or.inr hmoved
      · have hother := hshown q hq hqid kind'
        rw [← setNext_next_of_ne q kind kind' (input.advance schedule kind).value hkind,
          ← hnext] at hother
        exact hother
    · refine ⟨?_, hshown r hq hid⟩
      rcases hshown r hq hid kind with hsame | hlater
      · simp only [hid, PassInput.advance, hsame, decide_true, Bool.and_self, Bool.true_eq_false]
          at hnot
      · exact hlater
  exact ⟨fun r hr hid => (hrow r hr hid).2, fun r hr hid => (hrow r hr hid).1⟩

/-- So do all that are moved, one after the other. -/
theorem advances_after (as : List Advance) (db : PolicyDb)
    (has : ∀ a ∈ as, ∃ kind, a = input.advance schedule kind)
    (hshown : Shown input.scheduledTime schedule db) (kind : RequestKind)
    (hkind : input.advance schedule kind ∈ as ∨
      After input.scheduledTime schedule.scheduleId kind db) :
    After input.scheduledTime schedule.scheduleId kind (written (as.map Advance.write) db) := by
  induction as generalizing db with
  | nil => exact hkind.resolve_left List.not_mem_nil
  | cons a as ih =>
      rcases has a List.mem_cons_self with ⟨kind', rfl⟩
      have hfirst := advance_after input schedule hpos kind' db hshown
      have hbeside : Beside (fun _ _ => False) (fun id => id = schedule.scheduleId) db
          ((input.advance schedule kind').write.update db) :=
        advance_beside _ db rfl (nextDueAfter_lt _ _ _ (hpos kind')).le
      refine ih _ (fun b hb => has b (List.mem_cons_of_mem _ hb)) hfirst.1 ?_
      rcases hkind with hmem | hafter
      · rcases List.mem_cons.mp hmem with heq | hmem
        · have hsame : kind = kind' := congrArg Advance.kind heq
          rw [hsame]
          exact Or.inr hfirst.2
        · exact Or.inl hmem
      · exact Or.inr (after_beside _ _ _ db _ hbeside hafter)

end Clocks

/-! ## A whole pass -/

section Pass

variable {format : PolicyFormat}

/-- What a function is not about stays, besides what it returns and leaves. -/
theorem delivers_beside {α : Type} {Q : α → PolicyDb → Prop} {T : α → Prop}
    {M : String → RequestKind → Prop} {N : String → Prop} (p : PolicyProcess α) (s : PolicyDb)
    (hp : p.Within (Concerns M N) T) (h : Delivers format Q p s) :
    Delivers format (fun a t => Q a t ∧ Beside M N s t) p s := by
  have hbeside : p.Meets exec (Goes format) (fun _ => True) Eq (fun op _ => Concerns M N op)
      (fun _ t => Beside M N s t) s :=
    meets_of_within (R := Eq) (fun t => Beside M N s t) (fun _ _ ht heq => heq ▸ ht)
      (fun op w t _ hop _ ht => beside_trans s t _ ht (exec_beside op w t hop))
      (fun _ _ _ _ hop => hop) (fun _ _ ht => ht) p s (beside_refl s) hp
  refine meets_mono (fun _ _ _ => trivial) (fun a t ht => ?_) p s (meets_and p s h hbeside)
  cases a with
  | error e => exact ht.1
  | ok a => exact ht

theorem scanBodies_delivers (candidates : List IntegrityCandidate) (s : PolicyDb) :
    Delivers format (fun scanned _ => scanned.length = candidates.length)
      (scanBodies format candidates) s := by
  induction candidates generalizing s with
  | nil => exact rfl
  | cons c cs ih =>
      refine Interface.yields_then (read_delivers format (.getObject _) _ s (fun _ => rfl)
        (fun _ => rfl)) (fun object t _ => ?_)
      refine Interface.yields_then (ih t) (fun rest u hrest => ?_)
      exact congrArg Nat.succ hrest

theorem scanEvidence_valid (projectId : String) (now : Int) (coverage : Coverage)
    (scanned : List ScannedBody) (hnow : 0 ≤ now) (hlength : scanned.length ≤ 512) :
    (scanEvidence format projectId now coverage scanned).valid = true := by
  have hretain : now ≤ now + coldRetentionSeconds := by
    unfold coldRetentionSeconds
    omega
  have hmissing : scanned.countP (fun b => b = .missing) ≤ 512 :=
    List.countP_le_length.trans hlength
  have hmismatched : scanned.countP (fun b => b = .mismatched) ≤ 512 :=
    List.countP_le_length.trans hlength
  have hstatus : (scanEvidence format projectId now coverage scanned).status ≠ .requested := by
    unfold scanEvidence
    dsimp only
    split <;> exact nofun
  unfold OperationalEvidence.valid
  rw [decide_eq_false hstatus]
  simp only [scanEvidence, EvidenceDetail.valid, EvidenceDetail.request, hnow, hnow.trans hretain,
    hretain, hlength, hmissing, hmismatched, Option.isSome_none, decide_true, Bool.and_true]

variable (hfits : format.Fits)

include hfits

theorem scanProjectIntegrity_delivers (projectId : String) (now : Int) (hnow : 0 ≤ now)
    (id : String) (s : PolicyDb) :
    Delivers format (fun _ _ => True) (scanProjectIntegrity format projectId now id) s := by
  refine Interface.yields_then (read_delivers format (.countCandidates _) _ s (fun _ => rfl)
    (fun _ => rfl)) (fun count t _ => ?_)
  refine Interface.yields_then (read_delivers format (.readCandidates _) _ t (fun _ => rfl)
    (fun _ => rfl)) ?_
  rintro candidates u ⟨hread, -⟩
  have hpage : candidates.length ≤ 512 := by
    have htake : candidates.length ≤ integrityBodyLimit := hread ▸ List.length_take_le _ _
    unfold integrityBodyLimit at htake
    omega
  refine Interface.yields_then (scanBodies_delivers candidates u) (fun scanned v hscanned => ?_)
  have hvalid : ∀ coverage, (scanEvidence format projectId now coverage scanned).valid = true :=
    fun coverage => scanEvidence_valid projectId now coverage scanned hnow (hscanned ▸ hpage)
  refine meets_ite (fun hnot => ?_) (fun _ => ?_)
  · rw [hvalid] at hnot
    cases hnot
  · refine Interface.yields_then (read_delivers format (.recordExists _) _ v (fun _ => rfl)
      (fun _ => rfl)) (fun existing w _ => ?_)
    refine meets_ite (fun _ => trivial) (fun _ => ?_)
    refine Interface.yields_then (prepare_delivers hfits _ (hvalid _) _ w) (fun record x _ => ?_)
    refine Interface.yields_tryCatch _ _ x (meets_mono (fun _ _ h => h) (fun a y h => ?_) _ x
      (write_delivers format (.insertReport _) () x (fun _ => rfl)))
    cases a with
    | error e => exact h
    | ok a => exact trivial

/-- What is asked of a schedule before it is served. -/
structure InTurn (schedule : ScheduleRow) (db : PolicyDb) : Prop where
  mem : schedule ∈ db.schedules
  ids : (db.schedules.map ScheduleRow.scheduleId).Nodup
  intervals : ∀ kind, 0 < schedule.interval kind
  clocks : ∀ kind, 0 ≤ schedule.next kind

omit hfits in
theorem inTurn_beside {M : String → RequestKind → Prop} {N : String → Prop} (schedule : ScheduleRow)
    (s t : PolicyDb) (h : Beside M N s t) (hother : ¬ N schedule.scheduleId)
    (hs : InTurn schedule s) : InTurn schedule t :=
  ⟨beside_mem s t h schedule hs.mem hother, (beside_ids s t h).symm ▸ hs.ids, hs.intervals, hs.clocks⟩

omit hfits in
/-- The request of a clock is one of its schedule, and of its kind unless it was meant to be
    of a drill. -/
theorem requestEvidence_concerns (input : PassInput) (schedule : ScheduleRow) (kind : RequestKind)
    (sourcePoint : Option StoredContinuityPoint) (r : RequestRow)
    (hr : r ∈ (requestEvidence format (input.request schedule kind) sourcePoint).requestRow) :
    r.scheduleId = schedule.scheduleId ∧ (r.requestKind = kind ∨ kind = .continuityDrill) := by
  have hschedule := (requestRow_schedule _ r hr).2
  refine ⟨(Option.some.inj hschedule).symm, ?_⟩
  cases kind with
  | continuityDrill => exact Or.inr rfl
  | continuityPoint =>
      have hrow : (requestEvidence format (input.request schedule .continuityPoint)
          sourcePoint).requestRow = some r := hr
      unfold OperationalEvidence.requestRow requestEvidence at hrow
      dsimp only [PassInput.request, EvidenceDetail.request] at hrow
      rw [← Option.some.inj hrow]
      exact Or.inl rfl

section

variable (input : PassInput) (schedule : ScheduleRow)

/-- A clock is served, and nothing is moved. -/
theorem serveClock_beside (kind : RequestKind)
    (hnow : 0 ≤ input.now) (hnext : 0 ≤ schedule.next kind) (s : PolicyDb) :
    Delivers format (fun as t => ((∀ a ∈ as, a = input.advance schedule kind) ∧
          (schedule.next kind ≤ input.scheduledTime → Servable s schedule kind →
            as = [input.advance schedule kind])) ∧
        Beside (fun id k => id = schedule.scheduleId ∧ (k = kind ∨ kind = .continuityDrill))
          (fun _ => False) s t)
      (serveClock format input schedule kind) s := by
  refine delivers_beside _ s (serveClock_within format concerns_reads (fun _ _ => trivial) input
    schedule kind (fun b sourcePoint hb r hr => ?_))
    (serveClock_delivers hfits input schedule kind hnow hnext s)
  rw [hb] at hr
  exact requestEvidence_concerns input schedule kind sourcePoint r hr

/-- The clocks of a schedule that are due and can be served are moved past the time. -/
theorem serveSchedule_delivers (hnow : 0 ≤ input.now) (s : PolicyDb) (hs : InTurn schedule s) :
    Delivers format (fun _ t => ∀ kind, schedule.next kind ≤ input.scheduledTime →
        Servable s schedule kind → After input.scheduledTime schedule.scheduleId kind t)
      (serveSchedule format input schedule) s := by
  refine Interface.yields_then
    (serveClock_beside hfits input schedule .continuityPoint hnow (hs.clocks _) s) ?_
  rintro point t ⟨⟨hpoint, hmadePoint⟩, hbesidePoint⟩
  have ht : InTurn schedule t := inTurn_beside schedule s t hbesidePoint id hs
  have hdrillServable : Servable t schedule .continuityDrill ↔ Servable s schedule .continuityDrill :=
    beside_servable s t hbesidePoint schedule _ (fun h => h.2.elim nofun nofun)
  refine Interface.yields_then
    (serveClock_beside hfits input schedule .continuityDrill hnow (hs.clocks _) t) ?_
  rintro drill u ⟨⟨hdrill, hmadeDrill⟩, hbesideDrill⟩
  have hu : InTurn schedule u := inTurn_beside schedule t u hbesideDrill id ht
  have hmoves : ∀ a ∈ point ++ drill, ∃ kind, a = input.advance schedule kind := by
    intro a ha
    rcases List.mem_append.mp ha with ha | ha
    · exact ⟨_, hpoint a ha⟩
    · exact ⟨_, hdrill a ha⟩
  have hmade : ∀ kind, schedule.next kind ≤ input.scheduledTime → Servable s schedule kind →
      input.advance schedule kind ∈ point ++ drill := by
    intro kind hdue hservable
    cases kind with
    | continuityPoint =>
        rw [hmadePoint hdue hservable]
        exact List.mem_append_left _ List.mem_cons_self
    | continuityDrill =>
        rw [hmadeDrill hdue (hdrillServable.mpr hservable)]
        exact List.mem_append_right _ List.mem_cons_self
  have hshown : Shown input.scheduledTime schedule u := by
    intro r hr hid kind
    have hsame : r = schedule := List.inj_on_of_nodup_map hu.ids hr hu.mem hid
    exact Or.inl (congrArg (fun r => r.next kind) hsame)
  refine Interface.yields_then (M := fun _ v => ∀ kind, schedule.next kind ≤ input.scheduledTime →
    Servable s schedule kind → After input.scheduledTime schedule.scheduleId kind v) ?_ ?_
  · refine meets_ite (fun hnone kind hdue hservable => ?_) (fun _ => ?_)
    · have hmem := hmade kind hdue hservable
      rw [List.isEmpty_iff.mp hnone] at hmem
      exact absurd hmem List.not_mem_nil
    · refine meets_mono (fun _ _ h => h) (fun a v h => ?_) _ u
        (write_delivers format (.advance (point ++ drill)) () u (fun _ => rfl))
      cases a with
      | error e => exact h
      | ok a =>
          rcases h with ⟨-, w, rfl⟩
          intro kind hdue hservable
          exact advances_after input schedule hs.intervals _ u hmoves hshown kind
            (Or.inl (hmade kind hdue hservable))
  · intro _ v hv
    -- A scan moves no clock.
    have hscan := delivers_beside (M := fun _ _ => False) (N := fun _ => False) _ v
      (scanProjectIntegrity_within format concerns_reads (fun _ _ => trivial) (fun _ h => h) _ _ _)
      (scanProjectIntegrity_delivers hfits schedule.projectId input.now hnow
        (input.ids schedule.scheduleId).report v)
    refine meets_mono (fun _ _ h => h) (fun a x h => ?_) _ v hscan
    cases a with
    | error e => exact absurd h id
    | ok a =>
        exact fun kind hdue hservable => after_beside _ _ _ v x h.2 (hv kind hdue hservable)

/-- It is served beside the other schedules. -/
theorem serveSchedule_beside (hnow : 0 ≤ input.now) (s : PolicyDb) (hs : InTurn schedule s) :
    Delivers format (fun _ t => (∀ kind, schedule.next kind ≤ input.scheduledTime →
          Servable s schedule kind → After input.scheduledTime schedule.scheduleId kind t) ∧
        Beside (fun id _ => id = schedule.scheduleId) (fun id => id = schedule.scheduleId) s t)
      (serveSchedule format input schedule) s := by
  refine delivers_beside _ s (serveSchedule_within format concerns_reads (fun _ _ => trivial) input
    schedule (fun b kind sourcePoint hb r hr => ?_) (fun as has a ha => ?_) (fun _ h => h))
    (serveSchedule_delivers hfits input schedule hnow s hs)
  · rw [hb] at hr
    exact (requestEvidence_concerns input schedule kind sourcePoint r hr).1
  · rcases has a ha with ⟨kind, rfl⟩
    exact ⟨rfl, (nextDueAfter_lt _ _ _ (hs.intervals kind)).le⟩

/-- So are all that are taken on, one after the other. -/
theorem serveSchedules_delivers (hnow : 0 ≤ input.now)
    (schedules : List ScheduleRow) (hids : (schedules.map ScheduleRow.scheduleId).Nodup)
    (s : PolicyDb) (hs : ∀ schedule ∈ schedules, InTurn schedule s) :
    Delivers format (fun _ t => (∀ schedule ∈ schedules, ∀ kind,
          schedule.next kind ≤ input.scheduledTime → Servable s schedule kind →
            After input.scheduledTime schedule.scheduleId kind t) ∧
        Beside (fun id _ => id ∈ schedules.map ScheduleRow.scheduleId)
          (fun id => id ∈ schedules.map ScheduleRow.scheduleId) s t)
      (serveSchedules format input schedules) s := by
  induction schedules generalizing s with
  | nil => exact ⟨fun _ h => absurd h List.not_mem_nil, beside_refl s⟩
  | cons schedule rest ih =>
      rw [List.map_cons, List.nodup_cons] at hids
      have hapart : ∀ other ∈ rest, other.scheduleId ≠ schedule.scheduleId := by
        intro other hother heq
        exact hids.1 (heq ▸ List.mem_map_of_mem hother)
      refine Interface.yields_then
        (serveSchedule_beside hfits input schedule hnow s (hs schedule List.mem_cons_self)) ?_
      rintro _ t ⟨hserved, hbeside⟩
      refine meets_mono (fun _ _ h => h) (fun a u h => ?_) _ t (ih hids.2 t (fun other hother =>
        inTurn_beside other s t hbeside (hapart other hother)
          (hs other (List.mem_cons_of_mem _ hother))))
      cases a with
      | error e => exact h
      | ok a =>
          rcases h with ⟨hrest, hbesideRest⟩
          refine ⟨fun other hother kind hdue hservable => ?_, ?_⟩
          · rcases List.mem_cons.mp hother with rfl | hother
            · exact after_beside _ _ _ t u hbesideRest (hserved kind hdue hservable)
            · exact hrest other hother kind hdue
                ((beside_servable s t hbeside other kind (hapart other hother)).mpr hservable)
          · have hmono : ∀ id, id = schedule.scheduleId →
                id ∈ (schedule :: rest).map ScheduleRow.scheduleId := by
              rintro id rfl
              exact List.mem_cons_self
            exact beside_trans s t u
              (beside_mono (fun id _ => hmono id) hmono s t hbeside)
              (beside_mono (fun _ _ h => List.mem_cons_of_mem _ h)
                (fun _ h => List.mem_cons_of_mem _ h) t u hbesideRest)

end

/-- What the constraints of schedules come to. -/
structure Orderly (db : PolicyDb) : Prop where
  ids : (db.schedules.map ScheduleRow.scheduleId).Nodup
  intervals : ∀ s ∈ db.schedules, ∀ kind, 0 < s.interval kind
  clocks : ∀ s ∈ db.schedules, ∀ kind, 0 ≤ s.next kind

omit hfits in
theorem orderly_beside {M : String → RequestKind → Prop} {N : String → Prop} (s t : PolicyDb)
    (h : Beside M N s t) (hs : Orderly s) : Orderly t := by
  rcases h.schedules with ⟨f, hf, hforward⟩
  refine ⟨(beside_ids s t h).symm ▸ hs.ids, fun r hr kind => ?_, fun r hr kind => ?_⟩
  · rw [hf] at hr
    rcases List.mem_map.mp hr with ⟨q, hq, rfl⟩
    rw [(hforward q).intervals kind]
    exact hs.intervals q hq kind
  · rw [hf] at hr
    rcases List.mem_map.mp hr with ⟨q, hq, rfl⟩
    exact (hs.clocks q hq kind).trans ((hforward q).moved kind)

omit hfits in
/-- The schedules a pass takes on are distinct. -/
theorem dueSchedules_ids (db : PolicyDb) (scheduledTime : Int) (h : Orderly db) :
    ((dueSchedules db scheduledTime).map ScheduleRow.scheduleId).Nodup := by
  refine List.Nodup.sublist ((List.take_sublist _ _).map _) ?_
  rw [((List.perm_insertionSort _ _).map _).nodup_iff]
  exact List.Nodup.sublist (List.filter_sublist.map _) h.ids

/-- The clocks a pass serves: those of the schedules it takes on that are due and can be
    served, and beside them it leaves everything. -/
structure ServesDue (scheduledTime : Int) (db db' : PolicyDb) : Prop where
  served : ∀ s ∈ dueSchedules db scheduledTime, ∀ kind, s.next kind ≤ scheduledTime →
    Servable db s kind → After scheduledTime s.scheduleId kind db'
  beside : Beside (fun id _ => id ∈ (dueSchedules db scheduledTime).map ScheduleRow.scheduleId)
    (fun id => id ∈ (dueSchedules db scheduledTime).map ScheduleRow.scheduleId) db db'

theorem runScheduledPolicyOperations_delivers (input : PassInput) (hnow : 0 ≤ input.now)
    (s : PolicyDb) (hs : Orderly s) :
    Delivers format (fun _ t => ServesDue input.scheduledTime s t)
      (runScheduledPolicyOperations format input) s := by
  refine Interface.yields_then (read_delivers format (.readDueSchedules _) _ s (fun _ => rfl)
    (fun _ => rfl)) ?_
  rintro schedules t ⟨rfl, heq, -⟩
  rw [heq]
  have hturns : ∀ schedule ∈ dueSchedules s input.scheduledTime, InTurn schedule s := by
    intro schedule hmem
    have hschedule := (dueSchedules_mem s _ schedule hmem).1
    exact ⟨hschedule, hs.ids, hs.intervals schedule hschedule, hs.clocks schedule hschedule⟩
  refine Interface.yields_then (serveSchedules_delivers hfits input hnow _
    (dueSchedules_ids s _ hs) s hturns) ?_
  rintro _ u ⟨hserved, hbeside⟩
  have htouch := delivers_beside (M := fun _ _ => False) (N := fun _ => False) _ u
    (ask_within (.touchClock input.scheduledTime input.now) trivial)
    (write_delivers format (.touchClock input.scheduledTime input.now) () u (fun _ => rfl))
  refine meets_mono (fun _ _ h => h) (fun a v h => ?_) _ u htouch
  cases a with
  | error e => exact absurd h id
  | ok a =>
      refine ⟨fun schedule hmem kind hdue hservable => ?_, ?_⟩
      · exact after_beside _ _ _ u v h.2 (hserved schedule hmem kind hdue hservable)
      · exact beside_trans s u v hbeside (beside_mono (fun _ _ h => h.elim) (fun _ h => h.elim) u v h.2)

end Pass

/-! ## Passes, one after the other -/

section Passes

variable (format : PolicyFormat)

/-- The tables after a pass. -/
def passStep (db : PolicyDb) (e : PassInput × (ℕ → Outside)) : PolicyDb :=
  (finish exec (runScheduledPolicyOperations format e.1) e.2 db).2

/-- A clock that is due and that a pass could serve. -/
structure Waiting (scheduledTime : Int) (db : PolicyDb) (s : ScheduleRow) (kind : RequestKind) :
    Prop where
  active : s.status = .active
  due : s.next kind ≤ scheduledTime
  servable : Servable db s kind

instance (scheduledTime : Int) (db : PolicyDb) (s : ScheduleRow) (kind : RequestKind) :
    Decidable (Waiting scheduledTime db s kind) :=
  decidable_of_iff (_ ∧ _ ∧ _) ⟨fun h => ⟨h.1, h.2.1, h.2.2⟩, fun h => ⟨h.1, h.2, h.3⟩⟩

/-- A pass whose page has room: nothing stands in the way of its requests, and where it
    leaves out a schedule it could serve, one that it takes on has no clock that it cannot
    serve. -/
structure Flows (db : PolicyDb) (e : PassInput × (ℕ → Outside)) : Prop where
  now : 0 ≤ e.1.now
  goes : TakenAll exec (Goes format) (runScheduledPolicyOperations format e.1) e.2 db
  room : ∀ s ∈ db.schedules, ∀ kind, Waiting e.1.scheduledTime db s kind →
    s ∉ dueSchedules db e.1.scheduledTime → ∃ t ∈ dueSchedules db e.1.scheduledTime,
      ∀ kind, t.next kind ≤ e.1.scheduledTime → Servable db t kind

/-- A pass does not spend its page on schedules that it leaves as they are, while one that
    it could serve is left out. -/
def UsesSlots (db : PolicyDb) (e : PassInput × (ℕ → Outside)) : Prop :=
  (∀ s ∈ dueSchedules db e.1.scheduledTime, s ∈ (passStep format db e).schedules) →
    ∀ s ∈ db.schedules, ∀ kind, Waiting e.1.scheduledTime db s kind →
      s ∈ dueSchedules db e.1.scheduledTime

/-- A clock that can be served and is due at each of as many passes as there are schedules
    has been moved on after them. -/
def InTime (db : PolicyDb) (es : List (PassInput × (ℕ → Outside))) : Prop :=
  ∀ s ∈ db.schedules, ∀ kind, s.status = .active → Servable db s kind →
    (∀ e ∈ es, s.next kind ≤ e.1.scheduledTime) → db.schedules.length ≤ es.length →
      ∃ t ∈ (Run.runFrom (passStep format) db es).schedules, t.scheduleId = s.scheduleId ∧
        s.next kind < t.next kind

variable {format} (hfits : format.Fits)

include hfits

theorem pass_serves (db : PolicyDb) (e : PassInput × (ℕ → Outside)) (hdb : Orderly db)
    (he : Flows format db e) : ServesDue e.1.scheduledTime db (passStep format db e) := by
  have hend := meets_finish (fun _ _ _ _ _ _ => trivial) _ e.2 db trivial
    (runScheduledPolicyOperations_delivers hfits e.1 he.now db hdb) he.goes
  unfold passStep
  cases hr : (finish exec (runScheduledPolicyOperations format e.1) e.2 db).1 with
  | error err =>
      rw [hr] at hend
      exact absurd hend.2 id
  | ok a =>
      rw [hr] at hend
      exact hend.2

omit hfits in
/-- A schedule that is due and not taken on comes after all that are. -/
theorem ranks_of_left (db : PolicyDb) (scheduledTime : Int) (s t : ScheduleRow)
    (ht : t ∈ dueSchedules db scheduledTime) (hs : s ∈ db.schedules)
    (hdue : s.due scheduledTime = true) (hleft : s ∉ dueSchedules db scheduledTime) :
    t.ranks s = true := by
  have htotal : Std.Total (fun s t : ScheduleRow => s.ranks t = true) := by
    refine ⟨fun a b => ?_⟩
    simp only [ScheduleRow.ranks, Bool.or_eq_true, Bool.and_eq_true, decide_eq_true_eq]
    rcases lt_trichotomy a.nextAt b.nextAt with h | h | h
    · exact Or.inl (Or.inl h)
    · exact (le_total a.scheduleId b.scheduleId).imp (fun hid => Or.inr ⟨h, hid⟩)
        (fun hid => Or.inr ⟨h.symm, hid⟩)
    · exact Or.inr (Or.inl h)
  have htrans : IsTrans ScheduleRow (fun s t => s.ranks t = true) := by
    refine ⟨fun a b c hab hbc => ?_⟩
    simp only [ScheduleRow.ranks, Bool.or_eq_true, Bool.and_eq_true, decide_eq_true_eq] at hab hbc ⊢
    rcases hab with hab | ⟨hab, hid⟩
    · rcases hbc with hbc | ⟨hbc, -⟩
      · exact Or.inl (hab.trans hbc)
      · exact Or.inl (hbc ▸ hab)
    · rcases hbc with hbc | ⟨hbc, hid'⟩
      · exact Or.inl (hab ▸ hbc)
      · exact Or.inr ⟨hab.trans hbc, hid.trans hid'⟩
  have hsorted := List.pairwise_insertionSort (fun s t : ScheduleRow => s.ranks t = true)
    (db.schedules.filter (fun s => s.due scheduledTime))
  have hmem : s ∈ (db.schedules.filter (fun s => s.due scheduledTime)).insertionSort
      (fun s t => s.ranks t = true) :=
    (List.mem_insertionSort _).mpr (List.mem_filter.mpr ⟨hs, hdue⟩)
  rw [← List.take_append_drop schedulePageSize ((db.schedules.filter (fun s =>
    s.due scheduledTime)).insertionSort (fun s t => s.ranks t = true))] at hmem hsorted
  exact (List.pairwise_append.mp hsorted).2.2 t ht s ((List.mem_append.mp hmem).resolve_left hleft)

omit hfits in
/-- A schedule all of whose due clocks are served leaves the front. -/
theorem nextAt_of_served (db db' : PolicyDb) (scheduledTime : Int)
    (h : ServesDue scheduledTime db db') (t t' : ScheduleRow)
    (ht : t ∈ dueSchedules db scheduledTime) (ht' : t' ∈ db'.schedules)
    (hid : t'.scheduleId = t.scheduleId) (hmoved : ∀ kind, t.next kind ≤ t'.next kind)
    (hall : ∀ kind, t.next kind ≤ scheduledTime → Servable db t kind) :
    scheduledTime < t'.nextAt := by
  have hclocks : ∀ kind, scheduledTime < t'.next kind := by
    intro kind
    by_cases hdue : t.next kind ≤ scheduledTime
    · exact h.served t ht kind hdue (hall kind hdue) t' ht' hid
    · exact (not_le.mp hdue).trans_le (hmoved kind)
  exact lt_min (hclocks .continuityPoint) (hclocks .continuityDrill)

theorem pass_usesSlots (db : PolicyDb) (e : PassInput × (ℕ → Outside)) (hdb : Orderly db)
    (he : Flows format db e) : UsesSlots format db e := by
  intro hsame s hs kind hwaiting
  by_contra hleft
  rcases he.room s hs kind hwaiting hleft with ⟨t, ht, hall⟩
  have hafter := nextAt_of_served db _ e.1.scheduledTime (pass_serves hfits db e hdb he) t t ht
    (hsame t ht) rfl (fun _ => le_refl _) hall
  -- A schedule that was due no longer is.
  have hdue := (dueSchedules_mem db e.1.scheduledTime t ht).2
  simp only [ScheduleRow.due, Bool.and_eq_true, Bool.or_eq_true, decide_eq_true_eq] at hdue
  have hmin := lt_min_iff.mp hafter
  rcases hdue.2 with hpoint | hdrill
  · exact absurd hmin.1 (not_lt.mpr hpoint)
  · exact absurd hmin.2 (not_lt.mpr hdrill)

/-- How many schedules come before one. -/
def ahead (s : ScheduleRow) (db : PolicyDb) : ℕ :=
  db.schedules.countP (fun t => t.ranks s && t.scheduleId ≠ s.scheduleId)

/-- What waits for a clock to be served. -/
structure Awaits (s : ScheduleRow) (kind : RequestKind) (db : PolicyDb) : Prop where
  orderly : Orderly db
  mem : s ∈ db.schedules
  servable : Servable db s kind

/-- A clock was moved on. -/
def MovedOn (s : ScheduleRow) (kind : RequestKind) (db : PolicyDb) : Prop :=
  ∃ t ∈ db.schedules, t.scheduleId = s.scheduleId ∧ s.next kind < t.next kind

/-- A pass serves a clock that waits, or fewer schedules come before it. -/
theorem pass_awaits (s : ScheduleRow) (kind : RequestKind) (hactive : s.status = .active)
    (db : PolicyDb) (e : PassInput × (ℕ → Outside)) (h : Awaits s kind db) (he : Flows format db e)
    (hdue : s.next kind ≤ e.1.scheduledTime) :
    MovedOn s kind (passStep format db e) ∨
      (Awaits s kind (passStep format db e) ∧ ahead s (passStep format db e) < ahead s db) := by
  have hpass := pass_serves hfits db e h.orderly he
  rcases hpass.beside.schedules with ⟨f, hf, hforward⟩
  by_cases htaken : s ∈ dueSchedules db e.1.scheduledTime
  · have hrow : f s ∈ (passStep format db e).schedules := by
      rw [hf]
      exact List.mem_map_of_mem h.mem
    have hafter := hpass.served s htaken kind hdue h.servable (f s) hrow (hforward s).id
    exact Or.inl ⟨f s, hrow, (hforward s).id, hdue.trans_lt hafter⟩
  · have hother : s.scheduleId ∉ (dueSchedules db e.1.scheduledTime).map ScheduleRow.scheduleId := by
      intro hmem
      rcases List.mem_map.mp hmem with ⟨t, ht, hid⟩
      have hsame : t = s := List.inj_on_of_nodup_map h.orderly.ids
        (dueSchedules_mem db _ t ht).1 h.mem hid
      exact htaken (hsame ▸ ht)
    refine Or.inr ⟨⟨orderly_beside db _ hpass.beside h.orderly,
      beside_mem db _ hpass.beside s h.mem hother,
      (beside_servable db _ hpass.beside s kind hother).mpr h.servable⟩, ?_⟩
    rcases he.room s h.mem kind ⟨hactive, hdue, h.servable⟩ htaken with ⟨t, ht, hall⟩
    have htmem := (dueSchedules_mem db _ t ht).1
    have hrow : f t ∈ (passStep format db e).schedules := by
      rw [hf]
      exact List.mem_map_of_mem htmem
    have hlater := nextAt_of_served db _ e.1.scheduledTime hpass t (f t) ht hrow (hforward t).id
      (hforward t).moved hall
    have hearliest : s.nextAt ≤ s.next kind := by
      cases kind with
      | continuityPoint => exact min_le_left _ _
      | continuityDrill => exact min_le_right _ _
    have hsdue : s.due e.1.scheduledTime = true := by
      simp only [ScheduleRow.due, hactive, decide_true, Bool.true_and, Bool.or_eq_true,
        decide_eq_true_eq]
      cases kind with
      | continuityPoint => exact Or.inl hdue
      | continuityDrill => exact Or.inr hdue
    unfold ahead
    rw [hf]
    refine Table.countP_map_lt _ f db.schedules (fun r hr => ?_) t htmem ?_ ?_
    · -- Clocks are only moved on, so whoever comes before it did so before.
      rw [Bool.and_eq_true, decide_eq_true_eq] at hr ⊢
      rw [(hforward r).id] at hr
      refine ⟨?_, hr.2⟩
      have hnext : r.nextAt ≤ (f r).nextAt :=
        min_le_min ((hforward r).moved .continuityPoint) ((hforward r).moved .continuityDrill)
      have hranks := hr.1
      simp only [ScheduleRow.ranks, Bool.or_eq_true, Bool.and_eq_true, decide_eq_true_eq,
        (hforward r).id] at hranks ⊢
      rcases hranks with hlt | ⟨heq, hid⟩
      · exact Or.inl (by omega)
      · rcases (heq ▸ hnext).lt_or_eq with hlt | heq'
        · exact Or.inl hlt
        · exact Or.inr ⟨heq', hid⟩
    · rw [Bool.and_eq_true, decide_eq_true_eq]
      refine ⟨ranks_of_left db e.1.scheduledTime s t ht h.mem hsdue htaken, fun hid => htaken ?_⟩
      have hsame : t = s := List.inj_on_of_nodup_map h.orderly.ids htmem h.mem hid
      exact hsame ▸ ht
    · have hnot : (f t).ranks s = false := by
        simp only [ScheduleRow.ranks, Bool.or_eq_false_iff, Bool.and_eq_false_iff,
          decide_eq_false_iff_not]
        exact ⟨by omega, Or.inl (by omega)⟩
      rw [hnot, Bool.false_and]

theorem flows_orderly (db : PolicyDb) (e : PassInput × (ℕ → Outside)) (hdb : Orderly db)
    (he : Flows format db e) : Orderly (passStep format db e) :=
  orderly_beside db _ (pass_serves hfits db e hdb he).beside hdb

theorem run_inTime (db : PolicyDb) (hdb : Orderly db) (es : List (PassInput × (ℕ → Outside)))
    (h : Run.Along (Flows format) (passStep format) db es) : InTime format db es := by
  intro s hs kind hactive hservable hdue hlong
  refine (Run.served_of_measure (passStep format) (Awaits s kind)
    (fun db => Orderly db ∧ MovedOn s kind db) (ahead s) (fun db e hwaits he => ?_)
    (fun db e hmoved he => ?_) db es ⟨hdb, hs, hservable⟩
    (Run.along_and_mem (passStep format) db es h hdue) ?_).2
  · rcases pass_awaits hfits s kind hactive db e hwaits he.1 he.2 with hserved | hnext
    · exact Or.inl ⟨flows_orderly hfits db e hwaits.orderly he.1, hserved⟩
    · exact Or.inr hnext
  · refine ⟨flows_orderly hfits db e hmoved.1 he.1, ?_⟩
    rcases hmoved.2 with ⟨t, ht, hid, hlt⟩
    rcases (pass_serves hfits db e hmoved.1 he.1).beside.schedules with ⟨f, hf, hforward⟩
    refine ⟨f t, ?_, (hforward t).id.trans hid, hlt.trans_le ((hforward t).moved kind)⟩
    rw [hf]
    exact List.mem_map_of_mem ht
  · -- The schedule itself does not come before it.
    refine lt_of_lt_of_le (List.countP_lt_length_iff.mpr ⟨s, hs, ?_⟩) hlong
    simp only [ne_eq, not_true_eq_false, decide_false, Bool.and_false]

/-- Along passes whose pages have room, every pass uses its page, and from every table that
    such passes lead to each clock that can be served has its turn in time. -/
theorem schedules_served (db : PolicyDb) (hdb : Orderly db) (es : List (PassInput × (ℕ → Outside)))
    (h : Run.Along (Flows format) (passStep format) db es) :
    (∀ pre e post, es = pre ++ e :: post →
        UsesSlots format (Run.runFrom (passStep format) db pre) e) ∧
      ∀ pre post, es = pre ++ post → InTime format (Run.runFrom (passStep format) db pre) post := by
  have hreached : ∀ pre post, es = pre ++ post → Orderly (Run.runFrom (passStep format) db pre) ∧
      Run.Along (Flows format) (passStep format) (Run.runFrom (passStep format) db pre) post := by
    intro pre post hes
    rw [hes, Run.along_append] at h
    exact ⟨Run.runFrom_invariant _ Orderly (fun t e ht he => flows_orderly hfits t e ht he) db pre hdb
      h.1, h.2⟩
  constructor
  · intro pre e post hes
    rcases hreached pre (e :: post) hes with ⟨hordered, halong⟩
    exact pass_usesSlots hfits _ e hordered halong.1
  · intro pre post hes
    rcases hreached pre post hes with ⟨hordered, halong⟩
    exact run_inTime hfits _ hordered post halong

end Passes

/-! ## A page that is full -/

section Sample

instance decidableKinds (P : RequestKind → Prop) [∀ kind, Decidable (P kind)] : Decidable (∀ kind, P kind) :=
  decidable_of_iff (P .continuityPoint ∧ P .continuityDrill)
    ⟨fun h kind => RequestKind.casesOn kind h.1 h.2, fun h => ⟨h _, h _⟩⟩

instance (db : PolicyDb) : Decidable (Orderly db) :=
  decidable_of_iff (_ ∧ _ ∧ _) ⟨fun h => ⟨h.1, h.2.1, h.2.2⟩, fun h => ⟨h.1, h.2, h.3⟩⟩

instance (format : PolicyFormat) (db : PolicyDb) (e : PassInput × (ℕ → Outside)) :
    Decidable (Flows format db e) :=
  decidable_of_iff (_ ∧ _ ∧ _) ⟨fun h => ⟨h.1, h.2.1, h.2.2⟩, fun h => ⟨h.1, h.2, h.3⟩⟩

instance (format : PolicyFormat) (db : PolicyDb) (e : PassInput × (ℕ → Outside)) :
    Decidable (UsesSlots format db e) := by
  unfold UsesSlots
  infer_instance

instance (format : PolicyFormat) (db : PolicyDb) (es : List (PassInput × (ℕ → Outside))) :
    Decidable (InTime format db es) := by
  unfold InTime
  infer_instance

theorem plainFormat_fits : plainFormat.Fits :=
  fun _ _ => show 1 ≤ maxOperationalRecordBytes by decide

/-- A schedule whose checkpoints are due every hour. -/
def hourly (id : String) (nextCheckpointAt : Int) : ScheduleRow :=
  { scheduleId := id, operationalRecordId := id, projectId := id, policyBindingId := id
    status := .active, checkpointIntervalSeconds := 3600, drillIntervalSeconds := 2592000
    nextCheckpointAt := nextCheckpointAt, nextDrillAt := 2592000, revision := 1, createdAt := 0 }

/-- Eight schedules that are due, and a ninth. -/
def nineSchedules (ninth : Int) : PolicyDb :=
  { emptyDb with schedules :=
      ["a", "b", "c", "d", "e", "f", "g", "h"].map (fun id => hourly id 0) ++ [hourly "i" ninth] }

/-- A pass at a time, whose identifiers are new. -/
def passAt (time : Int) : PassInput × (ℕ → Outside) :=
  ({ scheduledTime := time, now := time
     ids := fun id => ⟨id ++ "-point-" ++ toString time, id ++ "-drill-" ++ toString time,
       id ++ "-report-" ++ toString time⟩ }, fun _ => answered)

theorem nineSchedules_served : UsesSlots plainFormat (nineSchedules 0) (passAt 0) ∧
    InTime plainFormat (nineSchedules 0) ((List.range 9).map (fun n => passAt n)) := by
  have halong : Run.Along (Flows plainFormat) (passStep plainFormat) (nineSchedules 0)
      ((List.range 9).map (fun n => passAt n)) := by decide +kernel
  have h := schedules_served plainFormat_fits (nineSchedules 0) (by decide +kernel) _ halong
  exact ⟨h.1 [] (passAt 0) _ rfl, h.2 [] _ rfl⟩

/-- Eight schedules have a request of a checkpoint that nobody completes. They stay in
    front, and the ninth is left out by every pass. -/
theorem fullPage_starves : ¬ UsesSlots plainFormat
      (passStep plainFormat (nineSchedules 4000) (passAt 0)) (passAt 4000) ∧
    ¬ InTime plainFormat (passStep plainFormat (nineSchedules 4000) (passAt 0))
      ((List.range 9).map (fun n => passAt (4000 + n))) := by
  decide +kernel

end Sample

end Mdevolved.Policy

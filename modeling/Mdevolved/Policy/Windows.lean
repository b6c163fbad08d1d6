import Mdevolved.Policy.Calls

/-!
# Windows of a Schedule

A clock of a schedule shows a window, and there is a request of it before the clock is
moved on. Nothing keeps two passes from working on the same schedule, and each of the
statements between reading a schedule and moving its clock may fail. What makes the
requests of a schedule come one after the other is what a pass knows when it stores a
request: there is one of that window already, and then storing does nothing, or the
clock still shows the window and no request of the clock is open. `Clear` says just
that, and no request of any other call disturbs it.

## Main definitions

* `Requested`: There is a request of a window.
* `Shows`: The clock of a schedule shows a window.
* `HasOpen`: A request of a clock is open.
* `Clear`: A request of a window may be stored.
* `WellKept`: Requests have distinct windows, and no clock has two that are open.

## Theorems

* `step_kept`: What every request does.
* `createScheduledRequest_serves`: What a pass knows of a window it has served.
* `process_serves`: What every function does.
* `scheduled_windows`, `windows_stay`: Windows in every run.
-/

namespace Mdevolved.Policy

open Batch Process

/-! ## Windows -/

/-- A window of a clock of a schedule. -/
abbrev Window := String × RequestKind × Int

/-- There is a request of a window. -/
def Requested (db : PolicyDb) (k : Window) : Prop :=
  ∃ r ∈ db.requests, r.key = k

/-- The clock of a schedule shows a window. -/
def Shows (db : PolicyDb) (k : Window) : Prop :=
  ∃ s ∈ db.schedules, s.scheduleId = k.1 ∧ s.next k.2.1 = k.2.2

/-- A request of a clock is open. -/
def HasOpen (db : PolicyDb) (scheduleId : String) (kind : RequestKind) : Prop :=
  ∃ r ∈ db.requests, r.scheduleId = scheduleId ∧ r.requestKind = kind ∧ r.isOpen = true

/-- There is a request of a window, or its clock shows it. -/
def Due (db : PolicyDb) (k : Window) : Prop :=
  Requested db k ∨ Shows db k

/-- There is a request of a window, or its clock shows it and no request is open. -/
def Clear (db : PolicyDb) (k : Window) : Prop :=
  Requested db k ∨ (Shows db k ∧ ¬ HasOpen db k.1 k.2.1)

/-- A schedule has a clock of an interval. -/
def Ticks (db : PolicyDb) (scheduleId : String) (kind : RequestKind) (interval : Int) : Prop :=
  ∃ s ∈ db.schedules, s.scheduleId = scheduleId ∧ s.interval kind = interval

theorem requestExists_iff (db : PolicyDb) (k : Window) :
    db.requests.any (fun r => r.key = k) = true ↔ Requested db k := by
  simp only [List.any_eq_true, decide_eq_true_eq, Requested]

theorem requestOpen_iff (db : PolicyDb) (scheduleId : String) (kind : RequestKind) :
    db.requests.any (fun r => r.scheduleId = scheduleId && r.requestKind = kind && r.isOpen) = true ↔
      HasOpen db scheduleId kind := by
  simp only [List.any_eq_true, Bool.and_eq_true, decide_eq_true_eq, HasOpen, and_assoc]

/-- Requests have distinct windows, no clock of a schedule has two that are open, and
    every request has its record. -/
structure WellKept (db : PolicyDb) : Prop where
  schedules : (db.schedules.map ScheduleRow.scheduleId).Nodup
  intervals : ∀ s ∈ db.schedules, ∀ kind, 0 < s.interval kind
  windows : (db.requests.map RequestRow.key).Nodup
  single : ∀ r ∈ db.requests, ∀ r' ∈ db.requests, r.isOpen = true → r'.isOpen = true →
    r.scheduleId = r'.scheduleId → r.requestKind = r'.requestKind → r = r'
  recorded : ∀ r ∈ db.requests, r.operationalRecordId = r.requestId ∧
    r.requestId ∈ db.records.map OperationalRecordRow.operationalRecordId

/-! ## Clocks -/

/-- A clock of a schedule stays, or is moved on from a window that was requested: past
    a time, by a multiple of its interval. -/
def Moved (scheduledTime : Int) (db : PolicyDb) (s s' : ScheduleRow) (kind : RequestKind) : Prop :=
  s'.next kind = s.next kind ∨
    (s.next kind < s'.next kind ∧ scheduledTime < s'.next kind ∧
      s'.next kind % s.interval kind = s.next kind % s.interval kind ∧
      Requested db (s.scheduleId, kind, s.next kind))

/-- Every schedule is still there, with clocks of the same intervals that were moved as
    they should. -/
def Advanced (scheduledTime : Int) (db db' : PolicyDb) : Prop :=
  ∀ s ∈ db.schedules, ∃ s' ∈ db'.schedules, s'.scheduleId = s.scheduleId ∧
    ∀ kind, s'.interval kind = s.interval kind ∧ Moved scheduledTime db s s' kind

theorem advanced_of_schedules (scheduledTime : Int) (db db' : PolicyDb)
    (h : ∀ s ∈ db.schedules, s ∈ db'.schedules) : Advanced scheduledTime db db' :=
  fun s hs => ⟨s, h s hs, rfl, fun _ => ⟨rfl, Or.inl rfl⟩⟩

theorem advanced_trans (scheduledTime : Int) (s t u : PolicyDb) (hrequests : t.requests = s.requests)
    (h : Advanced scheduledTime s t) (h' : Advanced scheduledTime t u) :
    Advanced scheduledTime s u := by
  intro a ha
  rcases h a ha with ⟨b, hb, hid, hab⟩
  rcases h' b hb with ⟨c, hc, hid', hbc⟩
  refine ⟨c, hc, hid'.trans hid, fun kind => ⟨(hbc kind).1.trans (hab kind).1, ?_⟩⟩
  rcases (hab kind).2 with hsame | ⟨hlt, htime, hmod, hrequested⟩
  · rcases (hbc kind).2 with hsame' | ⟨hlt', htime', hmod', hrequested'⟩
    · exact Or.inl (hsame'.trans hsame)
    · refine Or.inr ⟨hsame ▸ hlt', htime', ?_, ?_⟩
      · rw [← (hab kind).1, ← hsame]
        exact hmod'
      · rw [← hid, ← hsame]
        rcases hrequested' with ⟨r, hr, hkey⟩
        exact ⟨r, hrequests ▸ hr, hkey⟩
  · refine Or.inr ?_
    rcases (hbc kind).2 with hsame' | ⟨hlt', htime', hmod', -⟩
    · rw [hsame']
      exact ⟨hlt, htime, hmod, hrequested⟩
    · rw [(hab kind).1] at hmod'
      exact ⟨hlt.trans hlt', htime', hmod'.trans hmod, hrequested⟩

/-! ## What others leave -/

/-- What the requests of others leave to a pass. -/
structure Lets (s t : PolicyDb) : Prop where
  requested : ∀ k, Requested s k → Requested t k
  due : ∀ k, Due s k → Due t k
  clear : ∀ k, Clear s k → Clear t k
  ticks : ∀ scheduleId kind interval, Ticks s scheduleId kind interval →
    Ticks t scheduleId kind interval

theorem lets_refl (s : PolicyDb) : Lets s s :=
  ⟨fun _ h => h, fun _ h => h, fun _ h => h, fun _ _ _ h => h⟩

theorem lets_trans (s t u : PolicyDb) (h : Lets s t) (h' : Lets t u) : Lets s u :=
  ⟨fun k hk => h'.requested k (h.requested k hk), fun k hk => h'.due k (h.due k hk),
    fun k hk => h'.clear k (h.clear k hk), fun id kind i hi => h'.ticks id kind i (h.ticks id kind i hi)⟩

/-- Where the clocks of schedules move as they should, what was due stays so. -/
theorem due_of_advanced (scheduledTime : Int) (s t : PolicyDb)
    (hrequested : ∀ k, Requested s k → Requested t k) (h : Advanced scheduledTime s t) (k : Window)
    (hk : Due s k) : Due t k := by
  rcases hk with hk | ⟨a, ha, hid, hnext⟩
  · exact Or.inl (hrequested k hk)
  · rcases h a ha with ⟨b, hb, hid', hab⟩
    rcases (hab k.2.1).2 with hsame | ⟨-, -, -, hold⟩
    · exact Or.inr ⟨b, hb, hid'.trans hid, hsame.trans hnext⟩
    · rw [hid, hnext] at hold
      exact Or.inl (hrequested k hold)

/-- Where requests stay and none is opened, others leave everything to a pass. -/
theorem lets_of_advanced (scheduledTime : Int) (s t : PolicyDb)
    (hrequested : ∀ k, Requested s k → Requested t k)
    (hopen : ∀ scheduleId kind, HasOpen t scheduleId kind → HasOpen s scheduleId kind)
    (h : Advanced scheduledTime s t) : Lets s t := by
  refine ⟨hrequested, due_of_advanced scheduledTime s t hrequested h, fun k hk => ?_, ?_⟩
  · rcases hk with hk | ⟨hshows, hnone⟩
    · exact Or.inl (hrequested k hk)
    · rcases due_of_advanced scheduledTime s t hrequested h k (Or.inr hshows) with hdue | hshows'
      · exact Or.inl hdue
      · exact Or.inr ⟨hshows', fun h => hnone (hopen _ _ h)⟩
  · rintro scheduleId kind interval ⟨a, ha, hid, hinterval⟩
    rcases h a ha with ⟨b, hb, hid', hab⟩
    exact ⟨b, hb, hid'.trans hid, (hab kind).1.trans hinterval⟩

/-! ## What every request does -/

/-- What a pass may write: a request where its window is clear, and a clock where its
    window was requested. -/
def Allowed (scheduledTime : Int) (op : PolicyOp) (db : PolicyDb) : Prop :=
  match op with
  | .insertRequest b => ∃ r, b.evidence.requestRow = some r ∧
      b.prepared.operationalRecordId = r.requestId ∧ Clear db r.key
  | .insertReport b => b.evidence.requestRow = none
  | .advance as => ∀ a ∈ as, Requested db (a.scheduleId, a.kind, a.window) ∧
      ∃ interval, Ticks db a.scheduleId a.kind interval ∧
        a.value = nextDueAfter a.window interval scheduledTime
  | _ => True

/-- What a request keeps. -/
structure Kept (scheduledTime : Int) (db db' : PolicyDb) : Prop where
  wellKept : WellKept db'
  lets : Lets db db'
  advanced : Advanced scheduledTime db db'
  stays : ∀ r ∈ db.requests, ∃ r' ∈ db'.requests, r'.requestId = r.requestId ∧ r'.key = r.key

theorem requestRow_facts (e : OperationalEvidence) (r : RequestRow) (h : e.requestRow = some r) :
    r.requestId = e.evidenceId ∧ r.operationalRecordId = e.evidenceId ∧ r.status = .pending := by
  unfold OperationalEvidence.requestRow at h
  split at h
  · rw [Option.some.injEq] at h
    subst h
    exact ⟨rfl, rfl, rfl⟩
  · cases h

section

variable (a : Advance) (s : ScheduleRow) (kind : RequestKind) (scheduledTime : Int)

/-- A request that is stored is of a window that is clear, so it is the only one of its
    clock that is open. -/
theorem insertOrIgnore_kept (db db' : PolicyDb) (r : RequestRow)
    (h : WellKept db) (hclear : Clear db r.key) (hrecord : r.operationalRecordId = r.requestId)
    (hschedules : db'.schedules = db.schedules)
    (hrequests : db'.requests = insertOrIgnore db.requests r)
    (hrecords : ∀ id, id ∈ db.records.map OperationalRecordRow.operationalRecordId ∨
      id = r.requestId → id ∈ db'.records.map OperationalRecordRow.operationalRecordId) :
    Kept scheduledTime db db' := by
  have hmoved : Advanced scheduledTime db db' :=
    advanced_of_schedules scheduledTime db db' (fun s hs => hschedules ▸ hs)
  unfold insertOrIgnore at hrequests
  by_cases hadm : RequestRow.admits db.requests r = true
  · rw [if_pos hadm] at hrequests
    have hfresh : ∀ r' ∈ db.requests, r'.key ≠ r.key := by
      simp only [RequestRow.admits, Bool.and_eq_true] at hadm
      exact (fresh_iff _ _ _).mp hadm.1.1.1.2
    have hnot : ¬ Requested db r.key := fun ⟨r', hr', hkey⟩ => hfresh r' hr' hkey
    rcases hclear.resolve_left hnot with ⟨⟨s, hs, hsid, hsnext⟩, hnone⟩
    have hmono : ∀ k, Requested db k → Requested db' k := by
      rintro k ⟨r', hr', hkey⟩
      exact ⟨r', hrequests ▸ List.mem_append_left _ hr', hkey⟩
    have hself : Requested db' r.key :=
      ⟨r, hrequests ▸ List.mem_append_right _ (List.mem_singleton_self r), rfl⟩
    have hold : ∀ r' ∈ db'.requests, r' ∈ db.requests ∨ r' = r := by
      intro r' hr'
      rw [hrequests] at hr'
      rcases List.mem_append.mp hr' with h' | h'
      · exact Or.inl h'
      · exact Or.inr (List.mem_singleton.mp h')
    -- No other request of the clock is open.
    have halone : ∀ r' ∈ db.requests, r'.isOpen = true → r'.scheduleId = r.scheduleId →
        r'.requestKind ≠ r.requestKind :=
      fun r' hr' hopen hid hkind => hnone ⟨r', hr', hid, hkind, hopen⟩
    refine ⟨⟨?_, ?_, ?_, ?_, ?_⟩, ⟨hmono, ?_, ?_, ?_⟩, hmoved,
      fun a ha => ⟨a, hrequests ▸ List.mem_append_left _ ha, rfl, rfl⟩⟩
    · rw [hschedules]; exact h.schedules
    · rw [hschedules]; exact h.intervals
    · rw [hrequests]
      exact Table.map_concat_nodup RequestRow.key _ r h.windows hfresh
    · intro a ha b hb hopen hopen' hid hkind
      rcases hold a ha with ha | rfl
      · rcases hold b hb with hb | rfl
        · exact h.single a ha b hb hopen hopen' hid hkind
        · exact absurd hkind (halone a ha hopen hid)
      · rcases hold b hb with hb | rfl
        · exact absurd hkind.symm (halone b hb hopen' hid.symm)
        · rfl
    · intro a ha
      rcases hold a ha with ha | rfl
      · exact ⟨(h.recorded a ha).1, hrecords _ (Or.inl (h.recorded a ha).2)⟩
      · exact ⟨hrecord, hrecords _ (Or.inr rfl)⟩
    · exact fun k hk => due_of_advanced scheduledTime db db' hmono hmoved k hk
    · rintro k (hk | ⟨⟨s', hs', hid', hnext'⟩, hnone'⟩)
      · exact Or.inl (hmono k hk)
      · by_cases hclock : k.1 = r.scheduleId ∧ k.2.1 = r.requestKind
        · -- The clock shows one window only, and that was just requested.
          have hsame : s' = s := List.inj_on_of_nodup_map h.schedules hs' hs
            (hid'.trans (hclock.1.trans hsid.symm))
          have hkey : k = r.key := by
            refine Prod.ext hclock.1 (Prod.ext hclock.2 ?_)
            rw [← hnext', hsame, hclock.2]
            exact hsnext
          exact Or.inl (hkey ▸ hself)
        · refine Or.inr ⟨⟨s', hschedules ▸ hs', hid', hnext'⟩, ?_⟩
          rintro ⟨r', hr', hid, hkind, hopen⟩
          rcases hold r' hr' with hr' | rfl
          · exact hnone' ⟨r', hr', hid, hkind, hopen⟩
          · exact hclock ⟨hid.symm, hkind.symm⟩
    · rintro id kind interval ⟨s', hs', hrest⟩
      exact ⟨s', hschedules ▸ hs', hrest⟩
  · rw [if_neg hadm] at hrequests
    have hrequested : ∀ k, Requested db k → Requested db' k := fun k hk => by
      unfold Requested
      rw [hrequests]
      exact hk
    have hopen : ∀ id kind, HasOpen db' id kind → HasOpen db id kind := fun id kind hopen => by
      unfold HasOpen at hopen
      rw [hrequests] at hopen
      exact hopen
    refine ⟨⟨?_, ?_, ?_, ?_, ?_⟩, lets_of_advanced scheduledTime db db' hrequested hopen hmoved,
      hmoved, fun a ha => ⟨a, hrequests ▸ ha, rfl, rfl⟩⟩
    · rw [hschedules]; exact h.schedules
    · rw [hschedules]; exact h.intervals
    · rw [hrequests]; exact h.windows
    · rw [hrequests]; exact h.single
    · rw [hrequests]
      exact fun a ha => ⟨(h.recorded a ha).1, hrecords _ (Or.inl (h.recorded a ha).2)⟩

/-- What leaves requests and their windows as they are, completed or not. -/
theorem kept_of_requests (db db' : PolicyDb) (h : WellKept db)
    (f : RequestRow → RequestRow) (hf : ∀ r, (f r).key = r.key ∧ (f r).requestId = r.requestId ∧
      (f r).operationalRecordId = r.operationalRecordId ∧ ((f r).isOpen = true → f r = r))
    (hrequests : db'.requests = db.requests.map f)
    (hschedules : (db'.schedules.map ScheduleRow.scheduleId).Nodup)
    (hintervals : ∀ s ∈ db'.schedules, ∀ kind, 0 < s.interval kind)
    (hrecords : ∀ id ∈ db.records.map OperationalRecordRow.operationalRecordId,
      id ∈ db'.records.map OperationalRecordRow.operationalRecordId)
    (hadvanced : Advanced scheduledTime db db') : Kept scheduledTime db db' := by
  have hrequested : ∀ k, Requested db k → Requested db' k := by
    rintro k ⟨r, hr, hkey⟩
    exact ⟨f r, hrequests ▸ List.mem_map_of_mem hr, (hf r).1.trans hkey⟩
  have hopen : ∀ id kind, HasOpen db' id kind → HasOpen db id kind := by
    rintro id kind ⟨r, hr, hid, hkind, hopen⟩
    rw [hrequests] at hr
    rcases List.mem_map.mp hr with ⟨r', hr', rfl⟩
    have hsame := (hf r').2.2.2 hopen
    rw [hsame] at hid hkind hopen
    exact ⟨r', hr', hid, hkind, hopen⟩
  refine ⟨⟨hschedules, hintervals, ?_, ?_, ?_⟩,
    lets_of_advanced scheduledTime db db' hrequested hopen hadvanced, hadvanced,
    fun r hr => ⟨f r, hrequests ▸ List.mem_map_of_mem hr, (hf r).2.1, (hf r).1⟩⟩
  · rw [hrequests, List.map_map]
    have hkeys : RequestRow.key ∘ f = RequestRow.key := funext (fun r => (hf r).1)
    rw [hkeys]
    exact h.windows
  · intro a ha b hb hopena hopenb hid hkind
    rw [hrequests] at ha hb
    rcases List.mem_map.mp ha with ⟨a', ha', rfl⟩
    rcases List.mem_map.mp hb with ⟨b', hb', rfl⟩
    have hsamea : f a' = a' := (hf a').2.2.2 hopena
    have hsameb : f b' = b' := (hf b').2.2.2 hopenb
    rw [hsamea, hsameb] at hid hkind ⊢
    rw [hsamea] at hopena
    rw [hsameb] at hopenb
    exact h.single a' ha' b' hb' hopena hopenb hid hkind
  · intro a ha
    rw [hrequests] at ha
    rcases List.mem_map.mp ha with ⟨a', ha', rfl⟩
    rw [(hf a').2.1, (hf a').2.2.1]
    exact ⟨(h.recorded a' ha').1, hrecords _ (h.recorded a' ha').2⟩

@[simp] theorem setNext_next_self (value : Int) :
    (s.setNext kind value).next kind = value := by
  cases kind <;> rfl

theorem setNext_next_of_ne (kind kind' : RequestKind) (value : Int)
    (h : kind' ≠ kind) : (s.setNext kind value).next kind' = s.next kind' := by
  cases kind <;> cases kind' <;> first | rfl | exact absurd rfl h

@[simp] theorem setNext_scheduleId (value : Int) :
    (s.setNext kind value).scheduleId = s.scheduleId := by
  cases kind <;> rfl

@[simp] theorem setNext_interval (kind kind' : RequestKind) (value : Int) :
    (s.setNext kind value).interval kind' = s.interval kind' := by
  cases kind <;> cases kind' <;> rfl

/-- What a clock that is moved looks like. -/
def Advance.moves (a : Advance) (s : ScheduleRow) : ScheduleRow :=
  { s.setNext a.kind a.value with revision := s.revision + 1 }

theorem Advance.moves_next :
    (a.moves s).next kind = (s.setNext a.kind a.value).next kind := by
  cases kind <;> rfl

theorem Advance.moves_interval :
    (a.moves s).interval kind = s.interval kind := by
  rw [← setNext_interval s a.kind kind a.value]
  cases kind <;> rfl

theorem Advance.moves_scheduleId :
    (a.moves s).scheduleId = s.scheduleId :=
  setNext_scheduleId s a.kind a.value

/-- A clock is moved on from a window that was requested. -/
theorem advance_kept (a : Advance) (db : PolicyDb) (h : WellKept db)
    (hrequested : Requested db (a.scheduleId, a.kind, a.window)) (interval : Int)
    (hticks : Ticks db a.scheduleId a.kind interval)
    (hvalue : a.value = nextDueAfter a.window interval scheduledTime) :
    Kept scheduledTime db (a.write.update db) := by
  have hschedules : (a.write.update db).schedules = Table.update
      (fun s => s.scheduleId = a.scheduleId && s.next a.kind = a.window) a.moves db.schedules := rfl
  have hids : (a.write.update db).schedules.map ScheduleRow.scheduleId =
      db.schedules.map ScheduleRow.scheduleId := by
    rw [hschedules]
    exact Table.map_update ScheduleRow.scheduleId _ a.moves a.moves_scheduleId db.schedules
  refine kept_of_requests scheduledTime db _ h id (fun r => ⟨rfl, rfl, rfl, fun _ => rfl⟩)
    (List.map_id _).symm ?_ ?_ (fun _ hid => hid) ?_
  · rw [hids]
    exact h.schedules
  · intro s hs kind
    rw [hschedules] at hs
    rcases Table.mem_update _ _ db.schedules s hs with ⟨s', hs', ⟨-, rfl⟩ | ⟨-, rfl⟩⟩
    · rw [a.moves_interval]
      exact h.intervals s' hs' kind
    · exact h.intervals s hs' kind
  · intro s hs
    have hmem := Table.update_mem
      (fun s => decide (s.scheduleId = a.scheduleId) && decide (s.next a.kind = a.window))
      a.moves db.schedules s hs
    by_cases hp : (decide (s.scheduleId = a.scheduleId) && decide (s.next a.kind = a.window)) = true
    · rw [if_pos hp] at hmem
      refine ⟨a.moves s, hschedules ▸ hmem, a.moves_scheduleId s, fun kind =>
        ⟨a.moves_interval s kind, ?_⟩⟩
      rw [Bool.and_eq_true, decide_eq_true_eq, decide_eq_true_eq] at hp
      rcases hticks with ⟨s', hs', hid', hinterval⟩
      have hsame : s' = s := List.inj_on_of_nodup_map h.schedules hs' hs (hid'.trans hp.1.symm)
      rw [hsame] at hinterval
      have hpos : 0 < interval := hinterval ▸ h.intervals s hs a.kind
      unfold Moved
      rw [a.moves_next]
      by_cases hkind : kind = a.kind
      · rw [hkind, setNext_next_self, hvalue, hp.2, hinterval]
        refine Or.inr ⟨nextDueAfter_lt _ _ _ hpos, nextDueAfter_gt _ _ _ hpos,
          nextDueAfter_emod _ _ _, ?_⟩
        rw [hp.1]
        exact hrequested
      · exact Or.inl (setNext_next_of_ne s a.kind kind a.value hkind)
    · rw [if_neg hp] at hmem
      exact ⟨s, hschedules ▸ hmem, rfl, fun _ => ⟨rfl, Or.inl rfl⟩⟩

/-- So are several, one after the other. -/
theorem advances_kept (as : List Advance) (db : PolicyDb) (h : WellKept db)
    (has : Allowed scheduledTime (.advance as) db) :
    Kept scheduledTime db (written (as.map Advance.write) db) := by
  induction as generalizing db with
  | nil =>
      exact ⟨h, lets_refl db, advanced_of_schedules scheduledTime db db (fun _ hs => hs),
        fun r hr => ⟨r, hr, rfl, rfl⟩⟩
  | cons a as ih =>
      rcases has a List.mem_cons_self with ⟨hrequested, interval, hticks, hvalue⟩
      have hfirst := advance_kept scheduledTime a db h hrequested interval hticks hvalue
      have hrest := ih (a.write.update db) hfirst.wellKept (fun b hb => by
        rcases has b (List.mem_cons_of_mem _ hb) with ⟨hrequested, interval, hticks, hvalue⟩
        exact ⟨hfirst.lets.requested _ hrequested, interval, hfirst.lets.ticks _ _ _ hticks, hvalue⟩)
      exact ⟨hrest.wellKept, lets_trans _ _ _ hfirst.lets hrest.lets,
        advanced_trans scheduledTime db (a.write.update db) _ rfl hfirst.advanced hrest.advanced,
        hrest.stays⟩

/-- A drill that is completed leaves its request closed. -/
theorem completeDrill_kept (b : DrillBatch) (w : Outside) (db : PolicyDb)
    (h : WellKept db) : Kept scheduledTime db (written (b.writes w) db) := by
  refine kept_of_requests scheduledTime db _ h
    (fun r => if b.completes r then { r with status := .completed, completedAt := some b.now } else r)
    (fun r => ?_) rfl h.schedules h.intervals (fun id hid => ?_)
    (advanced_of_schedules scheduledTime db _ (fun _ hs => hs))
  · by_cases hc : b.completes r = true
    · rw [if_pos hc]
      exact ⟨rfl, rfl, rfl, nofun⟩
    · rw [if_neg hc]
      exact ⟨rfl, rfl, rfl, fun _ => rfl⟩
  · change id ∈ (db.records ++ [b.prepared.row]).map OperationalRecordRow.operationalRecordId
    rw [List.map_append]
    exact List.mem_append_left _ hid

theorem insertRecords_written (ps : List PreparedRecord) (db : PolicyDb) :
    written (ps.map insertPolicyOperationalRecord) db =
      { db with records := db.records ++ ps.map PreparedRecord.row } := by
  induction ps generalizing db with
  | nil =>
      rw [List.map_nil, written_nil, List.map_nil, List.append_nil]
  | cons p ps ih =>
      rw [List.map_cons, written_cons, ih, List.map_cons]
      change { db with records := (db.records ++ [p.row]) ++ _ } = _
      rw [List.append_assoc, List.singleton_append]

/-- What a binding that is activated does to schedules: one is paused and one is new. -/
theorem activate_written (b : ActivateBatch) (db : PolicyDb) :
    ∃ db₁ : PolicyDb, db₁ = written (b.supersede ++ b.prepared.map insertPolicyOperationalRecord) db ∧
      db₁.requests = db.requests ∧
      db₁.records = db.records ++ b.prepared.map PreparedRecord.row ∧
      (∃ p, db₁.schedules = Table.update p (fun s => { s with status := .paused }) db.schedules) ∧
      (written b.writes db).requests = db.requests ∧
      (written b.writes db).records = db₁.records ∧
      (written b.writes db).schedules = db₁.schedules ++ [b.scheduleRow] := by
  refine ⟨_, rfl, ?_⟩
  unfold ActivateBatch.writes
  rw [written_append (b.supersede ++ _), written_append, insertRecords_written]
  unfold ActivateBatch.supersede
  cases b.existingBindingId with
  | none =>
      refine ⟨rfl, rfl, ⟨fun _ => false, ?_⟩, rfl, rfl, rfl⟩
      exact (Table.update_of_none _ _ db.schedules (fun _ _ => rfl)).symm
  | some bindingId => exact ⟨rfl, rfl, ⟨_, rfl⟩, rfl, rfl, rfl⟩

/-- A schedule that is new has clocks, and those there are stay as they are. -/
theorem activate_kept (b : ActivateBatch) (db : PolicyDb) (h : WellKept db)
    (hpasses : Passes b.writes db) : Kept scheduledTime db (written b.writes db) := by
  rcases activate_written b db with ⟨db₁, rfl, -, hrecords₁, ⟨p, hschedules₁⟩, hrequests, hrecords,
    hschedules⟩
  rw [hschedules₁] at hschedules
  rw [hrecords₁] at hrecords
  have hadmits : ScheduleRow.admits (Table.update p (fun s => { s with status := .paused })
      db.schedules) b.scheduleRow = true := by
    unfold ActivateBatch.writes at hpasses
    rw [passes_append] at hpasses
    have hinsert := hpasses.2.2.1
    rw [Write.insertAll_passes] at hinsert
    have hsome := (Table.insertAll_cons_eq_some _ _ _ _ _).mp hinsert
    have hsame : ∀ db₂ : PolicyDb, ((Write.insertAll (ε := PolicyError) PolicyDb.bindings
        (fun db rows => { db with bindings := rows }) BindingRow.admits (fun _ => [b.bindingRow])
          .constraint).update db₂).schedules = db₂.schedules := fun _ => rfl
    rw [hsame, hschedules₁] at hsome
    exact hsome.1
  simp only [ScheduleRow.admits, Bool.and_eq_true, decide_eq_true_eq, validCheckpointInterval,
    validDrillInterval] at hadmits
  have hfresh := (fresh_iff _ _ _).mp hadmits.1.1.1.1.1.1
  have hids : (Table.update p (fun s : ScheduleRow => { s with status := .paused })
      db.schedules).map ScheduleRow.scheduleId = db.schedules.map ScheduleRow.scheduleId :=
    Table.map_update ScheduleRow.scheduleId p (fun s => { s with status := .paused })
      (fun _ => rfl) db.schedules
  refine kept_of_requests scheduledTime db _ h id (fun r => ⟨rfl, rfl, rfl, fun _ => rfl⟩)
    (by rw [hrequests, List.map_id]) ?_ ?_ ?_ ?_
  · rw [hschedules]
    exact Table.map_concat_nodup ScheduleRow.scheduleId _ _ (hids ▸ h.schedules) hfresh
  · intro s hs kind
    rw [hschedules] at hs
    rcases List.mem_append.mp hs with hold | hnew
    · rcases Table.mem_update _ _ db.schedules s hold with ⟨s', hs', ⟨-, rfl⟩ | ⟨-, rfl⟩⟩
      · have hsame : ∀ kind, ({ s' with status := .paused } : ScheduleRow).interval kind =
            s'.interval kind := fun kind => by cases kind <;> rfl
        rw [hsame]
        exact h.intervals s' hs' kind
      · exact h.intervals s hs' kind
    · rw [List.mem_singleton.mp hnew]
      cases kind with
      | continuityPoint => exact lt_of_lt_of_le (by decide) hadmits.1.1.1.2.1
      | continuityDrill => exact lt_of_lt_of_le (by decide) hadmits.1.1.2.1
  · intro id hid
    rw [hrecords, List.map_append]
    exact List.mem_append_left _ hid
  · intro s hs
    have hmem := Table.update_mem p (fun s : ScheduleRow => { s with status := .paused })
      db.schedules s hs
    refine ⟨_, hschedules ▸ List.mem_append_left _ hmem, ?_, fun kind => ?_⟩
    · split <;> rfl
    · split
      · cases kind <;> exact ⟨rfl, Or.inl rfl⟩
      · exact ⟨rfl, Or.inl rfl⟩

/-- The record of a batch is stored with it. -/
theorem recorded_after (b : RequestBatch) (db : PolicyDb) (id : String)
    (h : id ∈ db.records.map OperationalRecordRow.operationalRecordId ∨
      id = b.prepared.operationalRecordId) :
    id ∈ (written b.writes db).records.map OperationalRecordRow.operationalRecordId := by
  change id ∈ (db.records ++ [b.prepared.row]).map OperationalRecordRow.operationalRecordId
  rw [List.map_append, List.mem_append]
  rcases h with hold | rfl
  · exact Or.inl hold
  · exact Or.inr (List.mem_singleton_self _)

/-- Every request that is allowed keeps the windows of schedules in order. -/
theorem step_kept (op : PolicyOp) (w : Outside) (db : PolicyDb)
    (h : WellKept db) (hop : Allowed scheduledTime op db) :
    Kept scheduledTime db (exec op w db).2 := by
  have hstays : Kept scheduledTime db db :=
    ⟨h, lets_refl db, advanced_of_schedules scheduledTime db db (fun _ hs => hs),
      fun r hr => ⟨r, hr, rfl, rfl⟩⟩
  by_cases hquiet : op.quiet = true
  · rcases exec_quiet op w db hquiet with ⟨hrequests, hschedules, hrecords, -⟩
    refine kept_of_requests scheduledTime db _ h id (fun r => ⟨rfl, rfl, rfl, fun _ => rfl⟩)
      (by rw [hrequests, List.map_id]) ?_ ?_ (fun id hid => hrecords ▸ hid)
      (advanced_of_schedules scheduledTime db _ (fun s hs => hschedules ▸ hs))
    · rw [hschedules]; exact h.schedules
    · rw [hschedules]; exact h.intervals
  · rcases policy.exec_cases op w db with hsame | ⟨hpasses, hwritten⟩
    · rw [hsame]
      exact hstays
    · rw [hwritten]
      cases op with
      | insertRequest b =>
          rcases hop with ⟨r, hrow, hrecord, hclear⟩
          have hfacts := requestRow_facts b.evidence r hrow
          refine insertOrIgnore_kept scheduledTime db _ r h hclear (hfacts.2.1.trans hfacts.1.symm)
            rfl ?_ (fun id hid => recorded_after b db id (hid.imp_right (·.trans hrecord.symm)))
          change b.evidence.requestRow.elim db.requests (insertOrIgnore db.requests) = _
          rw [hrow]
          rfl
      | insertReport b =>
          have hrow : b.evidence.requestRow = none := hop
          refine kept_of_requests scheduledTime db _ h id (fun r => ⟨rfl, rfl, rfl, fun _ => rfl⟩)
            ?_ h.schedules h.intervals (fun id hid => recorded_after b db id (Or.inl hid))
            (advanced_of_schedules scheduledTime db _ (fun _ hs => hs))
          change b.evidence.requestRow.elim db.requests (insertOrIgnore db.requests) = _
          rw [hrow, List.map_id]
          rfl
      | advance as => exact advances_kept scheduledTime as db h hop
      | completeDrill b => exact completeDrill_kept scheduledTime b w db h
      | activate b => exact activate_kept scheduledTime b db h hpasses
      | _ => exact absurd rfl hquiet

end

/-! ## What every function does -/

section Calls

variable (format : PolicyFormat) (scheduledTime : Int)

/-- What a function does between the requests of others, and what it leaves. -/
abbrev Serves {α : Type} (Q : α → PolicyDb → Prop) (p : PolicyProcess α) (s : PolicyDb) : Prop :=
  p.Meets exec (fun _ _ _ => True) WellKept Lets (Allowed scheduledTime) (Interface.Returns Q) s

/-- A function that has no say over the windows of schedules. -/
abbrev Harmless {α : Type} (p : PolicyProcess α) : Prop :=
  p.Within (fun op => ∀ db, Allowed scheduledTime op db) (fun _ => True)

/-- A fact that the requests of others leave. -/
abbrev Lasts (K : PolicyDb → Prop) : Prop := ∀ s t, Lets s t → K s → K t

theorem harmless_serves {α : Type} (K : PolicyDb → Prop) (hK : Lasts K) (p : PolicyProcess α)
    (s : PolicyDb) (hs : K s) (hp : Harmless scheduledTime p) :
    Serves scheduledTime (fun _ t => K t) p s :=
  Interface.meets_quiet K hK
    (fun op w t hJ hop _ => (step_kept scheduledTime op w t hJ hop).lets) p s hs hp

section

variable (op : PolicyOp) (input : ScheduledRequestInput)

theorem quiet_allowed (h : op.quiet = true) (db : PolicyDb) :
    Allowed scheduledTime op db := by
  cases op with
  | insertRequest _ | insertReport _ | advance _ | completeDrill _ | activate _ => cases h
  | _ => exact trivial

theorem reads_allowed (h : op.reads = true) (db : PolicyDb) :
    Allowed scheduledTime op db :=
  quiet_allowed scheduledTime op (op.quiet_of_reads h) db

theorem put_allowed (record : PolicyOperationalRecord) (id : String) (db : PolicyDb) :
    Allowed scheduledTime (.putRecord (prepared format record id).object) db :=
  trivial

theorem ask_harmless (h : op.quiet = true) : Harmless scheduledTime (ask op) :=
  ask_within (A := fun op => ∀ db, Allowed scheduledTime op db) op (quiet_allowed scheduledTime op h)

theorem requestEvidence_row (sourcePoint : Option StoredContinuityPoint)
    (hsource : input.kind = .continuityDrill → sourcePoint ≠ none) :
    ∃ r, (requestEvidence format input sourcePoint).requestRow = some r ∧
      r.key = (input.schedule.scheduleId, input.kind, input.scheduleWindow) ∧
      r.dueAt = input.dueAt ∧ r.createdAt = input.now := by
  unfold OperationalEvidence.requestRow requestEvidence
  cases hkind : input.kind with
  | continuityPoint => exact ⟨_, rfl, rfl, rfl, rfl⟩
  | continuityDrill =>
      cases sourcePoint with
      | none => exact absurd rfl (hsource hkind)
      | some p => exact ⟨_, rfl, rfl, rfl, rfl⟩

/-- What a call has stored as a request is one afterwards, unless there was one. -/
theorem insertRequest_requested (b : RequestBatch) (r : RequestRow) (db : PolicyDb)
    (h : WellKept db) (hrow : b.evidence.requestRow = some r)
    (hrecord : b.prepared.operationalRecordId = r.requestId)
    (hvalid : 0 ≤ r.scheduleWindow ∧ 0 ≤ r.dueAt ∧ 0 ≤ r.createdAt)
    (hpasses : Passes b.writes db) : Requested (written b.writes db) r.key := by
  have hrequests : (written b.writes db).requests = insertOrIgnore db.requests r := by
    change b.evidence.requestRow.elim db.requests (insertOrIgnore db.requests) = _
    rw [hrow]
    rfl
  unfold Requested
  rw [hrequests]
  unfold insertOrIgnore
  by_cases hadm : RequestRow.admits db.requests r = true
  · rw [if_pos hadm]
    exact ⟨r, List.mem_append_right _ (List.mem_singleton_self r), rfl⟩
  · rw [if_neg hadm]
    -- The record is new, so what is in the way is a request of the window.
    have hadmits := (Write.insertAll_single _ _ _ _ _ _).mp hpasses.1
    simp only [OperationalRecordRow.admits, Bool.and_eq_true] at hadmits
    have hnew : ∀ id ∈ db.records.map OperationalRecordRow.operationalRecordId,
        id ≠ r.requestId := by
      intro id hid heq
      rcases List.mem_map.mp hid with ⟨t, ht, rfl⟩
      exact (fresh_iff _ _ _).mp hadmits.1.1.1.1.1.1 t ht (heq.trans hrecord.symm)
    have hids : fresh RequestRow.requestId db.requests r = true :=
      (fresh_iff _ _ _).mpr (fun r' hr' heq => hnew _ (h.recorded r' hr').2 heq)
    have hrecords : fresh RequestRow.operationalRecordId db.requests r = true := by
      refine (fresh_iff _ _ _).mpr (fun r' hr' heq => hnew _ (h.recorded r' hr').2 ?_)
      rw [← (h.recorded r' hr').1, heq, (requestRow_facts _ _ hrow).2.1,
        (requestRow_facts _ _ hrow).1]
    have hkey : fresh RequestRow.key db.requests r ≠ true := by
      intro hkey
      refine hadm ?_
      simp only [RequestRow.admits, hids, hrecords, hkey, hvalid, decide_true, Bool.and_true]
    simp only [ne_eq, fresh_iff, not_forall, not_not] at hkey
    rcases hkey with ⟨r', hr', heq⟩
    exact ⟨r', hr', heq⟩

theorem storeRequest_serves (sourcePoint : Option StoredContinuityPoint)
    (hsource : input.kind = .continuityDrill → sourcePoint ≠ none)
    (hvalid : (requestEvidence format input sourcePoint).valid = true) (s : PolicyDb)
    (hs : Clear s (input.schedule.scheduleId, input.kind, input.scheduleWindow)) :
    Serves scheduledTime (fun created t => created = true →
        Requested t (input.schedule.scheduleId, input.kind, input.scheduleWindow))
      (storeRequest format input (requestEvidence format input sourcePoint) sourcePoint) s := by
  rcases requestEvidence_row format input sourcePoint hsource with ⟨r, hrow, hkey, hdue, hcreated⟩
  have hnonneg : 0 ≤ r.scheduleWindow ∧ 0 ≤ r.dueAt ∧ 0 ≤ r.createdAt := by
    have hwindow : r.scheduleWindow = input.scheduleWindow := congrArg (fun k => k.2.2) hkey
    simp only [OperationalEvidence.valid, Bool.and_eq_true, decide_eq_true_eq] at hvalid
    have hdetail := hvalid.1.1.2
    have hnow := hvalid.1.1.1.1
    rw [hwindow, hdue, hcreated]
    have hclocks : 0 ≤ input.dueAt ∧ 0 ≤ input.scheduleWindow := by
      unfold requestEvidence at hdetail
      cases hkind : input.kind with
      | continuityPoint =>
          simp only [hkind, EvidenceDetail.valid, Bool.and_eq_true, decide_eq_true_eq] at hdetail
          exact hdetail
      | continuityDrill =>
          cases sourcePoint with
          | none => exact absurd rfl (hsource hkind)
          | some p =>
              simp only [hkind, EvidenceDetail.valid, Bool.and_eq_true, decide_eq_true_eq] at hdetail
              exact hdetail
    exact ⟨hclocks.2, hclocks.1, hnow⟩
  unfold storeRequest
  refine Interface.meets_then (M := fun record t => record = prepared format
      (.evidence (requestEvidence format input sourcePoint)) input.portableObjectId ∧
        Clear t (input.schedule.scheduleId, input.kind, input.scheduleWindow)) ?_ ?_
  · refine meets_ite (fun _ => trivial) (fun _ => ?_)
    refine meets_ite (fun _ => trivial) (fun _ => ?_)
    refine Interface.meets_then (M := fun _ t => Clear t _)
      (harmless_serves scheduledTime (fun t => Clear t _) (fun _ _ h => h.clear _) _ s hs
        (ask_harmless scheduledTime _ rfl)) (fun _ t ht => ⟨rfl, ht⟩)
  · rintro record t ⟨rfl, ht⟩
    refine meets_tryCatch _ _ t (meets_request _ _ t (fun u hu htu => ⟨?_, fun w _ => ⟨?_, ?_⟩⟩))
    · exact ⟨r, hrow, (requestRow_facts _ _ hrow).1.symm, hkey ▸ htu.clear _ ht⟩
    · intro answer hanswer _
      have hdone := policy.exec_ok _ w u answer hanswer
      rw [hdone.2.2, ← hkey]
      exact insertRequest_requested _ r u hu hrow (requestRow_facts _ _ hrow).1.symm hnonneg hdone.2.1
    · intro error _
      refine Interface.meets_then (Interface.meets_read (fun _ => True) (fun _ _ _ _ => trivial)
        (PolicyOp.requestExists ..) (fun _ => trivial) (fun _ => rfl) _ trivial) ?_
      rintro raced v ⟨-, -, w', hread⟩
      refine meets_ite (fun hraced _ => ?_) (fun _ => trivial)
      exact (requestExists_iff v _).mp ((Except.ok.inj hread).trans hraced)

/-- Where a request of a window was made, there is one. -/
theorem createScheduledRequest_serves (s : PolicyDb)
    (hs : Due s (input.schedule.scheduleId, input.kind, input.scheduleWindow)) :
    Serves scheduledTime (fun created t => created = true →
        Requested t (input.schedule.scheduleId, input.kind, input.scheduleWindow))
      (createScheduledRequest format input) s := by
  have hlasts : Lasts (fun t => Due t (input.schedule.scheduleId, input.kind,
      input.scheduleWindow)) := fun _ _ h => h.due _
  refine Interface.meets_then (harmless_serves scheduledTime _ hlasts _ s hs
    (readSourcePoint_within format (reads_allowed scheduledTime) input)) (fun sourcePoint t ht => ?_)
  refine Interface.meets_then (M := fun valid u => Due u (input.schedule.scheduleId, input.kind,
      input.scheduleWindow) ∧ (valid = true → input.kind = .continuityDrill → sourcePoint ≠ none)) ?_ ?_
  · cases hkind : input.kind with
    | continuityPoint =>
        unfold sourcePointValid
        rw [hkind]
        exact ⟨hkind ▸ ht, nofun⟩
    | continuityDrill =>
        cases sourcePoint with
        | none =>
            unfold sourcePointValid
            rw [hkind]
            exact ⟨hkind ▸ ht, nofun⟩
        | some p =>
            refine meets_mono (fun _ _ h => h) ?_ _ t (harmless_serves scheduledTime _ hlasts _ t ht
              (sourcePointValid_within (reads_allowed scheduledTime) input (some p)))
            intro r u hu
            cases r with
            | ok valid => exact ⟨hkind ▸ hu, fun _ _ => nofun⟩
            | error e => exact trivial
  · rintro valid u ⟨hu, hsource⟩
    refine meets_ite (fun _ => nofun) (fun hvalid => ?_)
    rw [Bool.not_eq_true', Bool.not_eq_false] at hvalid
    refine meets_ite (fun _ => trivial) (fun hevidence => ?_)
    rw [Bool.not_eq_true', Bool.not_eq_false] at hevidence
    refine Interface.meets_then (Interface.meets_read _ hlasts (PolicyOp.requestExists ..)
      (fun _ => trivial) (fun _ => rfl) u hu) ?_
    rintro already v ⟨-, hv, w, hread⟩
    refine meets_ite (fun halready _ => ?_) (fun _ => ?_)
    · exact (requestExists_iff v _).mp ((Except.ok.inj hread).trans halready)
    · refine Interface.meets_then (Interface.meets_read _ hlasts (PolicyOp.requestOpen ..)
        (fun _ => trivial) (fun _ => rfl) v hv) ?_
      rintro overlapping v' ⟨-, hv', w', hread'⟩
      refine meets_ite (fun _ => nofun) (fun hnone => ?_)
      have hclosed : ¬ HasOpen v' input.schedule.scheduleId input.kind := fun hopen =>
        hnone ((Except.ok.inj hread').symm.trans ((requestOpen_iff v' _ _).mpr hopen))
      exact storeRequest_serves format scheduledTime input sourcePoint (hsource hvalid) hevidence v'
        (hv'.imp_right (fun hshows => ⟨hshows, hclosed⟩))

end

/-- What nobody disturbs holds besides. -/
theorem frame_serves {α : Type} {Q : α → PolicyDb → Prop} (K : PolicyDb → Prop) (hK : Lasts K)
    (p : PolicyProcess α) (s : PolicyDb) (hs : K s) (hp : Serves scheduledTime Q p s) :
    Serves scheduledTime (fun a t => Q a t ∧ K t) p s :=
  Interface.meets_beside K hK
    (fun op w t hJ hop _ => (step_kept scheduledTime op w t hJ hop).lets) p s hs hp

/-- What a pass knows of a schedule it has read. -/
def Known (schedule : ScheduleRow) (db : PolicyDb) : Prop :=
  ∀ kind, Due db (schedule.scheduleId, kind, schedule.next kind) ∧
    Ticks db schedule.scheduleId kind (schedule.interval kind)

theorem known_lasts (schedule : ScheduleRow) : Lasts (Known schedule) :=
  fun _ _ h hk kind => ⟨h.due _ (hk kind).1, h.ticks _ _ _ (hk kind).2⟩

theorem known_of_mem (schedule : ScheduleRow) (db : PolicyDb) (h : schedule ∈ db.schedules) :
    Known schedule db :=
  fun _ => ⟨Or.inr ⟨schedule, h, rfl, rfl⟩, schedule, h, rfl, rfl⟩

theorem allowed_lasts (as : List Advance) : Lasts (Allowed scheduledTime (.advance as)) := by
  intro s t h has a ha
  rcases has a ha with ⟨hrequested, interval, hticks, hvalue⟩
  exact ⟨h.requested _ hrequested, interval, h.ticks _ _ _ hticks, hvalue⟩

/-- A clock that is to be moved shows a window that was requested. -/
theorem serveClock_serves (input : PassInput) (schedule : ScheduleRow) (kind : RequestKind)
    (s : PolicyDb) (hs : Known schedule s) :
    Serves input.scheduledTime (fun as t => Known schedule t ∧
      Allowed input.scheduledTime (.advance as) t) (serveClock format input schedule kind) s := by
  refine meets_ite (fun _ => ?_) (fun _ => ⟨hs, fun a ha => absurd ha List.not_mem_nil⟩)
  have hserves := frame_serves input.scheduledTime (Known schedule) (known_lasts schedule) _ s hs
    (createScheduledRequest_serves format input.scheduledTime (input.request schedule kind) s
      (hs kind).1)
  refine Interface.meets_then hserves (fun created t ht => ?_)
  refine ⟨ht.2, fun a ha => ?_⟩
  cases created with
  | false => exact absurd ha List.not_mem_nil
  | true =>
      rw [if_pos rfl, List.mem_singleton] at ha
      rw [ha]
      exact ⟨ht.1 rfl, _, (ht.2 kind).2, rfl⟩

theorem serveSchedule_serves (input : PassInput) (schedule : ScheduleRow) (s : PolicyDb)
    (hs : Known schedule s) :
    Serves input.scheduledTime (fun _ _ => True) (serveSchedule format input schedule) s := by
  refine Interface.meets_then (serveClock_serves format input schedule _ s hs)
    (fun point t ht => ?_)
  refine Interface.meets_then (frame_serves input.scheduledTime _
    (allowed_lasts input.scheduledTime point) _ t ht.2
      (serveClock_serves format input schedule _ t ht.1)) (fun drill u hu => ?_)
  have hboth : Allowed input.scheduledTime (.advance (point ++ drill)) u := by
    intro a ha
    rcases List.mem_append.mp ha with hpoint | hdrill
    · exact hu.2 a hpoint
    · exact hu.1.2 a hdrill
  refine Interface.meets_then (M := fun _ _ => True) ?_ (fun _ v _ => ?_)
  · refine meets_ite (fun _ => trivial) (fun _ v hv huv => ⟨?_, fun w _ => ?_⟩)
    · exact allowed_lasts input.scheduledTime _ u v huv hboth
    · cases (exec (.advance (point ++ drill)) w v).1 <;> exact trivial
  · exact harmless_serves input.scheduledTime _ (fun _ _ _ _ => trivial) _ v trivial
      (scanProjectIntegrity_within format (reads_allowed input.scheduledTime)
        (put_allowed format input.scheduledTime)
        (fun _ hrow _ => hrow) _ _ _)

theorem serveSchedules_serves (input : PassInput) (schedules : List ScheduleRow) (s : PolicyDb)
    (hs : ∀ schedule ∈ schedules, Known schedule s) :
    Serves input.scheduledTime (fun _ _ => True) (serveSchedules format input schedules) s := by
  induction schedules generalizing s with
  | nil => exact trivial
  | cons schedule rest ih =>
      have hrest : Lasts (fun t => ∀ schedule ∈ rest, Known schedule t) :=
        fun s t h hk schedule hmem => known_lasts schedule s t h (hk schedule hmem)
      refine Interface.meets_then (frame_serves input.scheduledTime _ hrest _ s
        (fun a ha => hs a (List.mem_cons_of_mem _ ha))
          (serveSchedule_serves format input schedule s (hs schedule List.mem_cons_self))) ?_
      exact fun _ t ht => ih t ht.2

theorem dueSchedules_mem (db : PolicyDb) (scheduledTime : Int) (schedule : ScheduleRow)
    (h : schedule ∈ dueSchedules db scheduledTime) :
    schedule ∈ db.schedules ∧ schedule.due scheduledTime = true := by
  have hsorted := List.mem_of_mem_take h
  rw [List.mem_insertionSort] at hsorted
  exact List.mem_filter.mp hsorted

theorem runScheduledPolicyOperations_serves (input : PassInput) (s : PolicyDb) :
    Serves input.scheduledTime (fun _ _ => True) (runScheduledPolicyOperations format input) s := by
  refine Interface.meets_then (Interface.meets_read (fun _ => True) (fun _ _ _ _ => trivial)
    (PolicyOp.readDueSchedules input.scheduledTime) (fun _ => trivial) (fun _ => rfl) s trivial) ?_
  rintro schedules t ⟨-, -, w, hread⟩
  have hread' : dueSchedules t input.scheduledTime = schedules := Except.ok.inj hread
  refine Interface.meets_then (serveSchedules_serves format input schedules t
    (fun schedule hmem => known_of_mem schedule t ?_)) (fun _ u _ => ?_)
  · rw [← hread'] at hmem
    exact (dueSchedules_mem t input.scheduledTime schedule hmem).1
  · exact harmless_serves input.scheduledTime _ (fun _ _ _ _ => trivial) _ u trivial
      (ask_harmless input.scheduledTime _ rfl)

/-- What a call may write: only a pass moves clocks and makes requests. -/
def PolicyCall.allows (call : PolicyCall) (op : PolicyOp) (db : PolicyDb) : Prop :=
  match call with
  | .runScheduledPolicyOperations input => Allowed input.scheduledTime op db
  | _ => ∀ scheduledTime, Allowed scheduledTime op db

/-- Every function keeps to what it may write. -/
theorem process_serves (call : PolicyCall) (s : PolicyDb) :
    (call.process format).Meets exec (fun _ _ _ => True) WellKept Lets call.allows
      (fun _ _ => True) s := by
  have hrest : ∀ p : PolicyProcess PolicyResult, (∀ time, Harmless time p) →
      p.Meets exec (fun _ _ _ => True) WellKept Lets
        (fun op db => ∀ scheduledTime, Allowed scheduledTime op db) (fun _ _ => True) s := by
    intro p
    induction p generalizing s with
    | done r => exact fun _ => trivial
    | call op next ih =>
        intro hp t _ _
        exact ⟨fun time => (hp time).1 t, fun w _ => ih _ _ (fun time => (hp time).2 _)⟩
  cases call with
  | runScheduledPolicyOperations input =>
      refine meets_mono (Q := Interface.Returns (fun _ _ => True)) (fun _ _ h => h)
        (fun _ _ _ => trivial) _ s ?_
      exact Interface.meets_then (runScheduledPolicyOperations_serves format input s)
        (fun _ _ _ => trivial)
  | completeContinuityDrill input =>
      exact hrest _ (fun time => within_bind (completeContinuityDrill_within format
        (reads_allowed time) (put_allowed format time) (fun _ _ => trivial) input) (fun _ _ => trivial))
  | activateProjectPolicyBinding input =>
      exact hrest _ (fun time => within_bind
        (activateProjectPolicyBinding_within format (reads_allowed time) (put_allowed format time)
          (fun _ _ => trivial) input)
        (fun _ _ => trivial))
  | surrounding op =>
      exact hrest _ (fun time => within_bind
        (ask_harmless time (.surrounding op) rfl) (fun _ _ => trivial))

end Calls

/-! ## Runs -/

section Runs

variable {ι : Type} [DecidableEq ι] (format : PolicyFormat) (calls : ι → PolicyCall)

theorem allows_some (call : PolicyCall) (op : PolicyOp) (db : PolicyDb) (h : call.allows op db) :
    ∃ scheduledTime, Allowed scheduledTime op db := by
  cases call with
  | runScheduledPolicyOperations input => exact ⟨_, h⟩
  | _ => exact ⟨0, h 0⟩

/-- In a pool of calls requests and windows are well kept, and every call keeps to what
    it may write. -/
abbrev Served (c : PolicyPool ι) : Prop :=
  Pool.Sound exec (fun _ _ _ => True) WellKept (fun _ => Lets) (fun i => (calls i).allows)
    (fun _ _ _ => True) c

theorem run_served (es : List (ι × Outside)) :
    Served calls (Pool.run exec (startPool format calls emptyDb) es) := by
  refine Run.runFrom_keeps _ (Served calls) (fun c e hc => ?_) _ es ⟨?_, fun i =>
    ⟨emptyDb, lets_refl emptyDb, process_serves format (calls i) emptyDb⟩⟩
  · refine Pool.step_sound (R := fun _ => Lets) (fun _ s _ => lets_refl s)
      (fun _ => lets_trans) ?_ c e hc (fun _ _ => trivial)
    intro i op w s hs hop _
    rcases allows_some (calls i) op s hop with ⟨time, hallowed⟩
    have hkept := step_kept time op w s hs hallowed
    exact ⟨hkept.wellKept, fun _ _ => hkept.lets⟩
  · exact ⟨List.nodup_nil, nofun, List.nodup_nil, nofun, nofun⟩

/-- No clock of a schedule has two open requests, and no window two requests. -/
structure RequestsSingle (db : PolicyDb) : Prop where
  perClock : ∀ r ∈ db.requests, ∀ r' ∈ db.requests, r.isOpen = true → r'.isOpen = true →
    r.scheduleId = r'.scheduleId → r.requestKind = r'.requestKind → r = r'
  perWindow : (db.requests.map RequestRow.key).Nodup

/-- A step of a call: requests stay what they are of, and a clock that is moved is moved
    by a pass, from a window that was requested, by a multiple of its interval to a time
    after that of the pass. -/
structure MovesClocks (call : PolicyCall) (db db' : PolicyDb) : Prop where
  stays : ∀ r ∈ db.requests, ∃ r' ∈ db'.requests, r'.requestId = r.requestId ∧ r'.key = r.key
  moves : ∀ s ∈ db.schedules, ∀ s' ∈ db'.schedules, s'.scheduleId = s.scheduleId →
    ∀ kind, s'.next kind ≠ s.next kind → ∃ input, call = .runScheduledPolicyOperations input ∧
      s.next kind < s'.next kind ∧ input.scheduledTime < s'.next kind ∧
      s'.next kind % s.interval kind = s.next kind % s.interval kind ∧
      Requested db (s.scheduleId, kind, s.next kind)

theorem step_moves (c : PolicyPool ι) (e : ι × Outside) (hc : Served calls c) :
    MovesClocks (calls e.1) c.shared (Pool.step exec c e).shared := by
  rcases Pool.step_shared exec c e with ⟨-, hsame⟩ | ⟨op, hnext, hshared⟩
  · rw [hsame]
    refine ⟨fun r hr => ⟨r, hr, rfl, rfl⟩, fun s hs s' hs' hid kind hne => absurd ?_ hne⟩
    rw [List.inj_on_of_nodup_map hc.1.schedules hs' hs hid]
  · rw [hshared]
    have hop : (calls e.1).allows op c.shared := Pool.takes_allowed c e.1 op hc hnext
    rcases allows_some (calls e.1) op c.shared hop with ⟨time, hallowed⟩
    have hkept := step_kept time op e.2 c.shared hc.1 hallowed
    refine ⟨hkept.stays, fun s hs s' hs' hid kind hne => ?_⟩
    have hmoved : ∀ time, Allowed time op c.shared → Moved time c.shared s s' kind := by
      intro time hallowed
      have hkept := step_kept time op e.2 c.shared hc.1 hallowed
      rcases hkept.advanced s hs with ⟨t, ht, htid, hclocks⟩
      have hsame : s' = t :=
        List.inj_on_of_nodup_map hkept.wellKept.schedules hs' ht (hid.trans htid.symm)
      exact hsame ▸ (hclocks kind).2
    cases hcall : calls e.1 with
    | runScheduledPolicyOperations input =>
        rw [hcall] at hop
        exact ⟨input, rfl, (hmoved input.scheduledTime hop).resolve_left hne⟩
    | completeContinuityDrill _ | activateProjectPolicyBinding _ | surrounding _ =>
        -- No call but a pass may move a clock past every time.
        rw [hcall] at hop
        have hpast := ((hmoved (s'.next kind) (hop _)).resolve_left hne).2.1
        exact absurd hpast (lt_irrefl _)

/-- Whatever the calls, the clocks they show and how their requests are interleaved and
    fail: in every state a clock of a schedule has one open request at most, and a
    window one request. Requests stay, and a clock only moves as it should. -/
theorem scheduled_windows (es : List (ι × Outside)) :
    (∀ pre, pre <+: es →
      RequestsSingle (Pool.run exec (startPool format calls emptyDb) pre).shared) ∧
    ∀ pre e, pre ++ [e] <+: es →
      MovesClocks (calls e.1) (Pool.run exec (startPool format calls emptyDb) pre).shared
        (Pool.run exec (startPool format calls emptyDb) (pre ++ [e])).shared := by
  constructor
  · intro pre _
    have hkept := (run_served format calls pre).1
    exact ⟨hkept.single, hkept.windows⟩
  · intro pre e _
    have hrun : Pool.run exec (startPool format calls emptyDb) (pre ++ [e]) =
        Pool.step exec (Pool.run exec (startPool format calls emptyDb) pre) e :=
      Run.runFrom_concat _ _ pre e
    rw [hrun]
    exact step_moves calls _ e (run_served format calls pre)

/-- No schedule is lost, and none of its clocks goes back or leaves its windows. -/
def Onward (db db' : PolicyDb) : Prop :=
  ∀ s ∈ db.schedules, ∃ s' ∈ db'.schedules, s'.scheduleId = s.scheduleId ∧
    ∀ kind, s'.interval kind = s.interval kind ∧ s.next kind ≤ s'.next kind ∧
      s'.next kind % s.interval kind = s.next kind % s.interval kind

theorem onward_advanced (scheduledTime : Int) (db t u : PolicyDb) (h : Onward db t)
    (h' : Advanced scheduledTime t u) : Onward db u := by
  intro s hs
  obtain ⟨a, ha, hid, hsa⟩ := h s hs
  obtain ⟨b, hb, hid', hab⟩ := h' a ha
  refine ⟨b, hb, hid'.trans hid, fun kind => ?_⟩
  obtain ⟨hinterval, hle, hmod⟩ := hsa kind
  refine ⟨(hab kind).1.trans hinterval, ?_⟩
  rcases (hab kind).2 with hsame | ⟨hlt, -, hmod', -⟩
  · rw [hsame]
    exact ⟨hle, hmod⟩
  · rw [hinterval] at hmod'
    exact ⟨hle.trans hlt.le, hmod'.trans hmod⟩

/-- In every run, clocks only go on, requests stay, and a window that a clock shows is shown until
    it is requested. -/
theorem windows_stay (es es' : List (ι × Outside)) :
    Lets (Pool.run exec (startPool format calls emptyDb) es).shared
        (Pool.run exec (startPool format calls emptyDb) (es ++ es')).shared ∧
      Onward (Pool.run exec (startPool format calls emptyDb) es).shared
        (Pool.run exec (startPool format calls emptyDb) (es ++ es')).shared := by
  induction es' using List.reverseRecOn with
  | nil =>
      rw [List.append_nil]
      exact ⟨lets_refl _, fun s hs => ⟨s, hs, rfl, fun _ => ⟨rfl, le_refl _, rfl⟩⟩⟩
  | append_singleton es' e ih =>
      have hc := run_served format calls (es ++ es')
      rw [← List.append_assoc, Pool.run, Pool.run, Run.runFrom_concat]
      rcases Pool.step_shared exec (Pool.run exec (startPool format calls emptyDb) (es ++ es')) e with
        ⟨-, hsame⟩ | ⟨op, hnext, hshared⟩
      · exact hsame ▸ ih
      · rcases allows_some (calls e.1) op _ (Pool.takes_allowed _ e.1 op hc hnext) with
          ⟨time, hallowed⟩
        -- Any call but a pass may move clocks past any time, as it moves none.
        have hkept := step_kept time op e.2 _ hc.1 hallowed
        rw [← hshared] at hkept
        exact ⟨lets_trans _ _ _ ih.1 hkept.lets, onward_advanced time _ _ _ ih.2 hkept.advanced⟩

end Runs

end Mdevolved.Policy

import FlowTrace.Proofs.Capacity

/-!
# Refusal — steps that leave no trace but in the counters

A step may be refused for six reasons: its process is not the target, its call moved no bytes, there
is no room for its newcomer, its key is not tracked, none of the incarnations that it names is
tracked, or it sights a connection that is tracked already. What is refused answers with the
registry as it was, so the tracker after it differs in the counters alone, and no answer depends on
these.

Hence a run may be told without the steps that it refuses: `kept` are the others, and each of them
is answered as in the whole run.
-/

namespace FlowTrace

/-- Whoever is named but not tracked is not removed, and the next one is looked for in the same
registry. -/
theorem Registry.removeAll_of_void {r : Registry} {ids : List ConnectionId}
    (h : ∀ id ∈ ids, ∀ c, r.find? id.key = some c → c.id.generation ≠ id.generation) :
    (r.removeAll ids).1 = r ∧ (r.removeAll ids).2.count .removed = 0 := by
  induction ids with
  | nil => exact ⟨rfl, rfl⟩
  | cons id ids ih =>
    have hrest := ih fun id' hid' => h id' (List.mem_cons_of_mem _ hid')
    have hfirst : (r.removeIncarnation id).1 = r ∧ (r.removeIncarnation id).2 ≠ .removed := by
      unfold removeIncarnation
      split
      · next c hfound => simp [h id List.mem_cons_self c hfound]
      · simp
    simpa [removeAll, hfirst, List.count_cons] using hrest

/-! ## Refused steps -/

namespace Step

/-- A call that moved no bytes. -/
def isEmpty (s : Step) : Bool :=
  s.incident?.any Incident.isEmpty

/-- What is replied to a step that is refused. -/
def refusal : Step → Reply
  | observe (.cleanup _) => .removed 0
  | observe _ => .silent
  | disable _ _ => .applied false
  | look _ => .silent

end Step

namespace Tracker

/-- An observation of a process that is not the target. -/
def isForeign (t : Tracker) (s : Step) : Bool :=
  s.key?.any fun key => !t.admits key.pid

/-- A newcomer to a full registry that rejects. -/
def isTurnedAway (t : Tracker) (s : Step) : Bool :=
  t.registry.policy == .reject && t.crowds s

/-- A close of a key that is not tracked, or an order for one. -/
def isMiss (t : Tracker) : Step → Bool
  | .observe (.closed o) => (t.registry.find? o.key).isNone
  | .disable key _ => (t.registry.find? key).isNone
  | _ => false

/-- A sweep that names no incarnation which is tracked, as far as it goes. -/
def isVoid (t : Tracker) : Step → Bool
  | .observe (.cleanup ids) => (ids.take t.config.cleanupBatchSize).all fun id =>
      (t.registry.find? id.key).all fun c => c.id.generation != id.generation
  | _ => false

/-- A sighting of a connection that is tracked. -/
def isResighting (t : Tracker) : Step → Bool
  | .observe (.opened o) => o.hint == .implicit && (t.registry.find? o.key).isSome
  | _ => false

/-- There is a reason to refuse the step. -/
def refuses (t : Tracker) (s : Step) : Bool :=
  t.isForeign s || s.isEmpty || t.isTurnedAway s || t.isMiss s || t.isVoid s || t.isResighting s

/-- The answer keeps everything but the counters. -/
def Keeps (t : Tracker) (s : Step) (out : Outcome) : Prop :=
  ∃ tally, out = { registry := t.registry, tally, reply := s.refusal }

variable {t : Tracker} {s : Step}

/-! ### Each reason -/

theorem keeps_counted {o : Observation} {tally : Counters} {out : Outcome}
    (hsilent : (Step.observe o).refusal = .silent)
    (hout : out = { registry := t.registry, tally }) :
    t.Keeps (.observe o) (observed.counted out) := by
  refine ⟨{ observations := 1 } + tally, ?_⟩
  rw [hout, hsilent]
  rfl

theorem keeps_of_isForeign (h : t.isForeign s = true) : t.Keeps s (t.respond s) := by
  unfold isForeign at h
  cases hkey : s.key? with
  | none => simp [hkey] at h
  | some key =>
    have hadmits : ¬t.admits key.pid = true := by simpa [hkey] using h
    cases s with
    | observe o =>
      cases o with
      | opened o | closed o | tlsDetected o =>
        cases hkey
        exact keeps_counted rfl (admitting_of_not_admits hadmits _)
      | data o | sendfile o =>
        cases hkey
        by_cases hcount : o.byteCount = 0
        · exact keeps_counted rfl (if_pos hcount)
        · exact keeps_counted rfl ((if_neg hcount).trans (admitting_of_not_admits hadmits _))
      | cleanup ids => cases hkey
    | disable _ _ | look _ => cases hkey

theorem keeps_of_isEmpty (h : s.isEmpty = true) : t.Keeps s (t.respond s) := by
  cases s with
  | observe o =>
    cases o with
    | data o | sendfile o =>
      have hcount : o.byteCount = 0 := by
        simpa [Step.isEmpty, Step.incident?, Incident.isEmpty] using h
      exact keeps_counted rfl (if_pos hcount)
    | opened _ | closed _ | tlsDetected _ | cleanup _ => cases h
  | disable _ _ | look _ => cases h

theorem refusal_of_key? {key : ConnectionKey} (h : s.key? = some key) : s.refusal = .silent := by
  cases s with
  | observe o =>
    cases o with
    | cleanup ids => cases h
    | _ => rfl
  | disable _ _ | look _ => cases h

theorem keeps_of_isTurnedAway (hsound : t.registry.IsSound) (h : t.isTurnedAway s = true) :
    t.Keeps s (t.respond s) := by
  simp only [isTurnedAway, Bool.and_eq_true, beq_iff_eq] at h
  rcases h with ⟨hpolicy, hcrowds⟩
  rcases exists_of_arrives (Bool.and_eq_true_iff.1 hcrowds).1 with ⟨key, hnewcomer, -, -⟩
  refine ⟨{ observations := 1, capacityRejected := 1 }, ?_⟩
  rw [respond_of_refused hsound hpolicy hcrowds, refusal_of_key? (key?_of_newcomer? hnewcomer)]

theorem keeps_of_isMiss (h : t.isMiss s = true) : t.Keeps s (t.respond s) := by
  cases s with
  | observe o =>
    cases o with
    | closed o =>
      have huntracked : t.registry.find? o.key = none := by simpa [isMiss] using h
      by_cases hadmits : t.admits o.key.pid = true
      · have hmissed : t.closed o = { registry := t.registry, tally := { lookupMiss := 1 } } := by
          simp only [closed, admitting_of_admits hadmits, huntracked]
        exact keeps_counted rfl hmissed
      · exact keeps_counted rfl (admitting_of_not_admits hadmits _)
    | _ => cases h
  | disable key generation =>
    have huntracked : t.registry.find? key = none := by simpa [isMiss] using h
    refine ⟨{ lookupMiss := 1 }, ?_⟩
    simp only [respond, disabled, huntracked]
    rfl
  | look key => cases h

theorem keeps_of_isVoid (h : t.isVoid s = true) : t.Keeps s (t.respond s) := by
  cases s with
  | observe o =>
    cases o with
    | cleanup ids =>
      have hvoid : ∀ id ∈ ids.take t.config.cleanupBatchSize, ∀ c,
          t.registry.find? id.key = some c → c.id.generation ≠ id.generation := by
        intro id hid c hfound
        simpa [hfound] using List.all_eq_true.1 h id hid
      rcases Registry.removeAll_of_void hvoid with ⟨hregistry, hcount⟩
      simp only [Keeps, respond, observed, swept, hregistry, hcount]
      exact ⟨_, rfl⟩
    | _ => cases h
  | disable _ _ | look _ => cases h

theorem keeps_of_isResighting (h : t.isResighting s = true) : t.Keeps s (t.respond s) := by
  cases s with
  | observe o =>
    cases o with
    | opened o =>
      simp only [isResighting, Bool.and_eq_true, beq_iff_eq, Option.isSome_iff_exists] at h
      rcases h with ⟨hhint, c, hfound⟩
      by_cases hadmits : t.admits o.key.pid = true
      · have hsighted : t.opened o = { registry := t.registry } := by
          simp only [opened, admitting_of_admits hadmits, hfound, hhint]
        exact keeps_counted rfl hsighted
      · exact keeps_counted rfl (admitting_of_not_admits hadmits _)
    | _ => cases h
  | disable _ _ | look _ => cases h

/-- A step that is refused keeps everything but the counters. -/
theorem keeps_of_refuses (hsound : t.registry.IsSound) (h : t.refuses s = true) :
    t.Keeps s (t.respond s) := by
  simp only [refuses, Bool.or_eq_true] at h
  rcases h with ((((hforeign | hempty) | hturned) | hmiss) | hvoid) | hresighting
  · exact keeps_of_isForeign hforeign
  · exact keeps_of_isEmpty hempty
  · exact keeps_of_isTurnedAway hsound hturned
  · exact keeps_of_isMiss hmiss
  · exact keeps_of_isVoid hvoid
  · exact keeps_of_isResighting hresighting

/-! ## Runs without refusals -/

/-- The steps of a run that are not refused. -/
def kept (t : Tracker) : List Step → List Step
  | [] => []
  | s :: steps => if t.refuses s then (t.next s).kept steps else s :: (t.next s).kept steps

/-- The answers of a run to these steps. -/
def keptOutcomes (t : Tracker) : List Step → List Outcome
  | [] => []
  | s :: steps =>
    if t.refuses s then (t.next s).keptOutcomes steps
    else t.respond s :: (t.next s).keptOutcomes steps

theorem kept_append (t : Tracker) (first rest : List Step) :
    t.kept (first ++ rest) = t.kept first ++ (t.run first).kept rest := by
  induction first generalizing t with
  | nil => rfl
  | cons s first ih =>
    have hrest := ih (t.next s)
    cases hrefuses : t.refuses s <;> simpa [kept, hrefuses] using! hrest

/-- Two trackers that differ in their counters at most. -/
structure SameBut (t u : Tracker) : Prop where
  config_eq : t.config = u.config
  control_eq : t.control = u.control
  registry_eq : t.registry = u.registry

namespace SameBut

variable {u : Tracker}

/-- No answer depends on the counters. -/
theorem respond_eq (h : t.SameBut u) (s : Step) : t.respond s = u.respond s := by
  rcases t with ⟨config, control, registry, counters⟩
  rcases h with ⟨rfl, rfl, rfl⟩
  cases s with
  | observe o => cases o <;> rfl
  | disable _ _ | look _ => rfl

theorem next (h : t.SameBut u) (s : Step) : (t.next s).SameBut (u.next s) :=
  ⟨h.config_eq, h.control_eq, congrArg Outcome.registry (h.respond_eq s)⟩

theorem refl (t : Tracker) : t.SameBut t :=
  ⟨rfl, rfl, rfl⟩

theorem symm (h : t.SameBut u) : u.SameBut t :=
  ⟨h.config_eq.symm, h.control_eq.symm, h.registry_eq.symm⟩

theorem trans {v : Tracker} (h : t.SameBut u) (h' : u.SameBut v) : t.SameBut v :=
  ⟨h.config_eq.trans h'.config_eq, h.control_eq.trans h'.control_eq,
    h.registry_eq.trans h'.registry_eq⟩

end SameBut

/-- A step that is refused leaves the tracker as it was, but for the counters. -/
theorem sameBut_next (hsound : t.registry.IsSound) (h : t.refuses s = true) :
    (t.next s).SameBut t := by
  rcases keeps_of_refuses hsound h with ⟨tally, hrespond⟩
  exact ⟨rfl, rfl, congrArg Outcome.registry hrespond⟩

/-- The run without the refused steps, next to the whole run. -/
theorem run_kept {t u : Tracker} (hsame : u.SameBut t) (hsound : t.registry.IsSound)
    (steps : List Step) :
    (u.run (t.kept steps)).SameBut (t.run steps) ∧
      u.outcomes (t.kept steps) = t.keptOutcomes steps := by
  induction steps generalizing t u with
  | nil => exact ⟨hsame, rfl⟩
  | cons s steps ih =>
    have hsound' : (t.next s).registry.IsSound := sound_respond hsound s
    cases hrefuses : t.refuses s with
    | true =>
      -- The step is left out, and nothing has changed by it.
      have hrest := ih (hsame.trans (sameBut_next hsound hrefuses).symm) hsound'
      simpa [kept, keptOutcomes, hrefuses] using! hrest
    | false =>
      rcases ih (hsame.next s) hsound' with ⟨hrun, houtcomes⟩
      refine ⟨?_, ?_⟩
      · simpa [kept, hrefuses] using! hrun
      · simp [kept, keptOutcomes, hrefuses, outcomes, houtcomes, hsame.respond_eq s]

/-- What is refused tells nothing. -/
theorem flatMap_keptOutcomes (hsound : t.registry.IsSound) (steps : List Step) :
    (t.keptOutcomes steps).flatMap Outcome.events = t.events steps := by
  induction steps generalizing t with
  | nil => rfl
  | cons s steps ih =>
    have hrest := ih (t := t.next s) (sound_respond hsound s)
    have hevents : t.events (s :: steps) = (t.respond s).events ++ (t.next s).events steps := by
      simp [events, outcomes]
    rw [hevents]
    cases hrefuses : t.refuses s with
    | true =>
      rcases keeps_of_refuses hsound hrefuses with ⟨tally, hrespond⟩
      simpa [keptOutcomes, hrefuses, hrespond] using hrest
    | false => simp [keptOutcomes, hrefuses, hrest]

/-! ## Processes -/

/-- With a target process, only connections of this process are tracked. -/
def Concerns (t : Tracker) (pid : UInt32) : Prop :=
  ∀ key, (t.registry.find? key).isSome → key.pid = pid

theorem concerns_next {pid : UInt32} (htarget : t.control.target = .pid pid)
    (hconcerns : t.Concerns pid) (s : Step) : (t.next s).Concerns pid := by
  intro key htracked
  by_contra hpid
  rcases tracked_respond htracked with hbefore | hkey
  · exact hpid (hconcerns key hbefore)
  · -- A key of another process is refused, so it was tracked before.
    have hforeign : t.isForeign s = true := by
      have hnone : t.admits key.pid = false := by
        simp [admits, htarget, Target.force?, Ne.symm hpid]
      simp [isForeign, hkey, hnone]
    rcases keeps_of_isForeign hforeign with ⟨tally, hrespond⟩
    rw [registry_next, hrespond] at htracked
    exact hpid (hconcerns key htracked)

variable {config : Config} {control : Control}

theorem concerns_run (h : make config control = .ok t) {pid : UInt32}
    (htarget : control.target = .pid pid) (steps : List Step) : (t.run steps).Concerns pid := by
  induction steps using List.reverseRecOn with
  | nil =>
    rcases make_eq_ok h with ⟨rfl, -, -⟩
    intro key htracked
    cases htracked
  | append_singleton steps s ih =>
    have hcontrol : (t.run steps).control.target = .pid pid := by
      rcases make_eq_ok h with ⟨rfl, -, -⟩
      simpa using htarget
    rw [run_append]
    exact concerns_next hcontrol ih s

/-- In every run, a step that is refused answers with the registry as it was and with nothing else
but counts. Without the refused steps, the others are answered as in the whole run, which tells the
same events, and whatever is asked in between is the same. With a target process, no connection of
another one is ever tracked. -/
theorem refused_invisible (h : make config control = .ok t) (steps : List Step) :
    (∀ s, (t.run steps).refuses s = true → ∃ tally,
        (t.run steps).respond s =
          { registry := (t.run steps).registry, tally, reply := s.refusal } ∧
        (t.run steps).next s =
          { t.run steps with counters := (t.run steps).counters + tally }) ∧
      (∀ rest, t.kept (steps ++ rest) = t.kept steps ++ (t.run steps).kept rest) ∧
      t.outcomes (t.kept steps) = t.keptOutcomes steps ∧
      t.events (t.kept steps) = t.events steps ∧
      (t.run (t.kept steps)).registry = (t.run steps).registry ∧
      (∀ key, (t.run (t.kept steps)).connection? key = (t.run steps).connection? key) ∧
      ∀ pid, control.target = .pid pid →
        ∀ e ∈ (t.run steps).registry.entries, e.1.pid = pid := by
  have hempty : t.registry.IsSound := sound_run h []
  rcases run_kept (.refl t) hempty steps with ⟨hrun, houtcomes⟩
  refine ⟨?_, kept_append t steps, houtcomes, ?_, hrun.registry_eq, ?_, ?_⟩
  · intro s hrefuses
    rcases keeps_of_refuses (sound_run h steps) hrefuses with ⟨tally, hrespond⟩
    refine ⟨tally, hrespond, ?_⟩
    simp [next, advance, hrespond]
  · calc
      t.events (t.kept steps) = (t.keptOutcomes steps).flatMap Outcome.events := by
        rw [events, houtcomes]
      _ = t.events steps := flatMap_keptOutcomes hempty steps
  · intro key
    simp only [connection?, hrun.registry_eq]
  · intro pid htarget e he
    have hfound := (Registry.mem_entries_iff (sound_run h steps).nodup).1 he
    exact concerns_run h htarget steps e.1 (by simp [hfound])

/-- A tracker of a single connection of one process. -/
def targeted : Tracker :=
  ⟨narrow .reject, { Control.everything with target := .pid 7 }, .empty 1 .reject, {}⟩

theorem make_targeted :
    make (narrow .reject) { Control.everything with target := .pid 7 } = .ok targeted :=
  rfl

/-- A client of another process, a second client of the target and a close of a handle that is not
tracked come between the first client and its request. -/
def intrusion : List Step :=
  [ Session.connect ⟨7, 3⟩, Session.connect ⟨8, 3⟩, Session.connect ⟨7, 4⟩, Session.close ⟨7, 5⟩,
    Session.request ⟨7, 3⟩ ]

/-- What is left of the run is the client and its request. -/
theorem refused_invisible_intrusion :
    make (narrow .reject) { Control.everything with target := .pid 7 } = .ok targeted ∧
      targeted.kept intrusion = [Session.connect ⟨7, 3⟩, Session.request ⟨7, 3⟩] ∧
      targeted.events [Session.connect ⟨7, 3⟩, Session.request ⟨7, 3⟩] =
        targeted.events intrusion ∧
      ∀ e ∈ (targeted.run intrusion).registry.entries, e.1.pid = 7 := by
  have hkept : targeted.kept intrusion = [Session.connect ⟨7, 3⟩, Session.request ⟨7, 3⟩] := by
    decide +kernel
  rcases refused_invisible make_targeted intrusion with
    ⟨-, -, -, hevents, -, -, htarget⟩
  rw [hkept] at hevents
  exact ⟨make_targeted, hkept, hevents, htarget 7 rfl⟩

end Tracker

end FlowTrace

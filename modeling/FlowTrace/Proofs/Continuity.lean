import FlowTrace.Proofs.Gate
import FlowTrace.Proofs.Withholding

/-!
# Continuity — no gap once forwarding has started

The gate looks at the protocol and the role of a connection, and both are latched. If every mask is
one of the four that have a name, then nothing passes while the role is unknown, so whatever has
passed the gate is latched. From then on all calls of the incarnation pass, until an order disables it.

A whole call that passes is cut without a gap. So the chunks of a direction tile its stream from the
first call that has passed to the end, `gapless`, as long as no call of this direction is segmented
and its total fits a word.
-/

namespace FlowTrace

/-! ## The gate -/

namespace TraceMask

/-- The masks that have a name. -/
def named : List TraceMask :=
  [disabled, client, server, both]

/-- Data without a role does not pass a mask that has a name. -/
theorem isResolved_of_allows {m : TraceMask} {r : Role} (hm : m ∈ named) (h : m.allows r = true) :
    r.isResolved = true := by
  revert m
  cases r <;> decide

end TraceMask

/-- Every mask has a name. -/
def Control.IsNamed (control : Control) : Prop :=
  ∀ p, control.masks p ∈ TraceMask.named

/-- What has passed the gate passes it later on, unless it is disabled. -/
theorem Control.IsNamed.sends_of_retains {control : Control} (hnamed : control.IsNamed)
    {c c' : Connection} (hretains : c.Retains c') (hfree : c'.isDisabled = false)
    (h : control.sends (control.forces c.id.key.pid) c = true) :
    control.sends (control.forces c'.id.key.pid) c' = true := by
  simp only [Control.sends, Bool.and_eq_true, Bool.or_eq_true] at h ⊢
  rcases h with ⟨⟨hself, -⟩, hpasses⟩
  rw [hretains.id_eq]
  refine ⟨⟨hself, by simp [hfree]⟩, ?_⟩
  rcases hpasses with hforced | ⟨hknown, hallows⟩
  · exact Or.inl hforced
  · -- The mask has looked at a role that is latched, of a protocol that is latched.
    have hresolved := TraceMask.isResolved_of_allows (hnamed c.protocol) hallows
    rw [hretains.protocol_eq hknown, hretains.role_eq hresolved]
    exact Or.inr ⟨hknown, hallows⟩

namespace Encounter

variable {config : Config} {control : Control} {e e' : Encounter}

/-- What is not disabled passes, if an earlier encounter of the connection has passed. -/
theorem isSent_of_retains (hnamed : control.IsNamed)
    (hretains : (e.reaction config control).connection.Retains e'.connection)
    (hfree : e'.connection.isDisabled = false) (hsent : e.isSent config control = true)
    (hcall : e'.call?.isSome = true) : e'.isSent config control = true := by
  rcases (Option.any_eq_true _ _).1 hsent with ⟨⟨c, m⟩, hmoving, hsends⟩
  rcases isSome_call?_iff.1 hcall with ⟨c', m', hmoving'⟩
  rw [isSent_of_moving hmoving']
  have hbetween : c.Retains e'.connection := by
    rw [connection_reaction hmoving] at hretains
    exact (Connection.Retains.account c config.statsThreshold m).trans hretains
  have hfree' : c'.isDisabled = false := by
    rcases Connection.moving?_frame hmoving' with ⟨hid, -, hup, -⟩
    simpa [Connection.isDisabled, hid, hup] using hfree
  exact hnamed.sends_of_retains (hbetween.trans (.of_moving hmoving')) hfree' hsends

theorem isDisabled_of_isSent (hsent : e.isSent config control = true) :
    (e.reaction config control).connection.isDisabled = false := by
  rcases (Option.any_eq_true _ _).1 hsent with ⟨⟨c, m⟩, hmoving, hsends⟩
  have hfree : c.isDisabled = false := by
    simp only [Control.sends, Bool.and_eq_true, Bool.not_eq_true'] at hsends
    exact hsends.1.2
  rw [connection_reaction hmoving]
  simpa [Connection.isDisabled] using hfree

end Encounter

/-! ## Tiles -/

/-- Chunks that follow one another without a gap from one position to another. -/
def DataChunk.Tiles (start stop : Nat) : List DataChunk → Prop
  | [] => start = stop
  | x :: xs => x.position = start ∧ Tiles (start + x.size) stop xs

theorem DataChunk.Tiles.append {start middle stop : Nat} {xs ys : List DataChunk}
    (hxs : Tiles start middle xs) (hys : Tiles middle stop ys) : Tiles start stop (xs ++ ys) := by
  induction xs generalizing start with
  | nil =>
    cases hxs
    exact hys
  | cons x xs ih => exact ⟨hxs.1, ih hxs.2⟩

theorem Connection.tiles_chunks (c : Connection) (m : Movement) (position : Nat)
    (header : Option Header) (pieces : List Piece) :
    DataChunk.Tiles position (position + Piece.totalSize pieces)
      (c.chunks m position header pieces) := by
  induction pieces generalizing position header with
  | nil => rfl
  | cons p ps ih =>
    have hrest := ih (position + p.size) none
    rw [Nat.add_assoc] at hrest
    exact ⟨rfl, hrest⟩

/-- The chunks of a call tile the bytes that it adds to a direction, if they pass the gate and are
cut without a gap. -/
theorem Encounter.tiles_reaction {config : Config} {control : Control} {e : Encounter}
    (hcheck : config.check = .ok ()) (d : Direction) (hmoved : e.incident.isEmpty = false)
    (hsent : e.call?.isSome = true → e.isSent config control = true)
    (hwhole : e.connection.adds d e.incident ≠ 0 → e.incident.isWhole = true) :
    DataChunk.Tiles (e.connection.position d)
      (e.connection.position d + e.connection.adds d e.incident)
      ((Event.chunks (e.reaction config control).events).filter (·.direction = d)) := by
  cases hmoving : e.connection.moving? config e.incident with
  | none =>
    have hnone : Event.chunks (e.reaction config control).events = [] :=
      Connection.chunks_of_not_moving control hmoving
    rw [hnone, Connection.adds_of_not_moving d hmoving]
    rfl
  | some p =>
    rcases p with ⟨c, m⟩
    rcases Connection.moving?_frame hmoving with ⟨hid, -, -, hposition⟩
    have hsends : control.sends (control.forces e.connection.id.key.pid) c = true := by
      rw [← hid, ← isSent_of_moving hmoving]
      exact hsent (isSome_call?_iff.2 ⟨c, m, hmoving⟩)
    have hchunks : Event.chunks (e.reaction config control).events =
        (c.forward config.chunkLimits control (control.forces e.connection.id.key.pid) m).1 :=
      Connection.chunks_of_moving control hmoving
    rw [Connection.adds_of_moving d hmoving] at hwhole ⊢
    rw [hchunks, Connection.filter_direction_forward]
    split
    · next hd =>
      subst hd
      rw [if_pos rfl] at hwhole
      have htotal := Connection.totalSize_of_isWhole hmoving hcheck
        (hwhole (Connection.byteCount_of_moving hmoving hmoved))
      rw [Connection.forward_of_sends control hsends, ← hposition, ← htotal]
      exact c.tiles_chunks m _ _ _
    · rfl

namespace Life

variable {config : Config} {control : Control} {past more : List Entry} {status : Option Connection}

/-- What an entry has left known is known of the connection from then on. -/
theorem retains_invariant :
    Invariant config control fun past c =>
      ∀ e ∈ past, (e.reaction config control).connection.Retains c := by
  constructor
  · intro id address role e he
    cases he
  · intro past e hafter hclosing hpast e' he'
    rcases List.mem_append.1 he' with hmem | hmem
    · exact (hpast e' hmem).trans (.undergo e.connection config control e.incident)
    · rw [List.mem_singleton.1 hmem]
      exact .refl _

/-- A call passes the gate, if an earlier one of its incarnation has passed and no order has come
between them. -/
theorem isSent_of_earlier (hnamed : control.IsNamed) {e e' : Entry} {between : List Entry}
    (h : Life config control (past ++ e :: between ++ e' :: more) status)
    (hfree : ∀ x ∈ between, ∀ generation, x.incident ≠ .disabled generation)
    (hsent : e.isSent config control = true) (hcall : e'.call?.isSome = true) :
    e'.isSent config control = true := by
  have hretains : (e.reaction config control).connection.Retains e'.connection :=
    (retains_invariant.of_met h) e (by simp)
  have hid : e'.connection.id = e.connection.id :=
    hretains.id_eq.trans (Connection.id_undergo control e.incident)
  have hbefore : e.connection.isDisabled =
      past.any (·.incident.withholds e.connection.id.generation) := by
    rw [List.append_assoc] at h
    exact disabled_invariant.of_met h
  have hbetween : between.any (·.incident.withholds e.connection.id.generation) = false := by
    rw [List.any_eq_false]
    intro x hx
    cases hincident : x.incident with
    | disabled generation => exact absurd hincident (hfree x hx generation)
    | _ => simp [Incident.withholds]
  -- The connection is disabled by the orders so far, and there was none when the first call passed.
  have hleft : (e.connection.isDisabled || e.incident.withholds e.connection.id.generation) =
      false := by
    rw [← Connection.isDisabled_undergo config control e.incident]
    exact Encounter.isDisabled_of_isSent hsent
  have hfree' : e'.connection.isDisabled = false := by
    rw [disabled_invariant.of_met h, hid, List.any_append, List.any_cons, ← hbefore,
      ← Bool.or_assoc, hleft, hbetween]
    rfl
  exact Encounter.isSent_of_retains hnamed hretains hfree' hsent hcall

/-- Whole calls that pass the gate tile what they add to a direction. -/
theorem tiles (hcheck : config.check = .ok ()) {d : Direction} {es : List Entry}
    (h : Life config control (past ++ es) status)
    (hsent : ∀ e ∈ es, e.call?.isSome = true → e.isSent config control = true)
    (hwhole : ∀ e ∈ es, e.adds d ≠ 0 → e.incident.isWhole = true)
    (hword : Entry.moved d (past ++ es) ≤ maxWord) :
    DataChunk.Tiles (Entry.moved d past) (Entry.moved d (past ++ es)) (Entry.sent d es) := by
  induction es generalizing past with
  | nil => simp [Entry.sent, DataChunk.Tiles]
  | cons e es ih =>
    have hafter := h.split.1
    have hmet := (position_invariant d).of_met h
    -- The first entry tiles its own bytes, and the others go on where it ends.
    have hsplit : past ++ e :: es = past ++ [e] ++ es := by simp
    rw [hsplit] at h hword ⊢
    have hrest := ih h (fun x hx => hsent x (List.mem_cons_of_mem e hx))
      (fun x hx => hwhole x (List.mem_cons_of_mem e hx)) hword
    have hposition : e.connection.position d = Entry.moved d past := by
      rw [Entry.moved_append, Entry.moved_append] at hword
      exact hmet.trans (saturate_of_le (by omega))
    have hone := Encounter.tiles_reaction hcheck d hafter.moved (hsent e List.mem_cons_self)
      (hwhole e List.mem_cons_self)
    rw [hposition, ← hafter.events_eq, ← Entry.sent_singleton] at hone
    have hmiddle : Entry.moved d (past ++ [e]) = Entry.moved d past + e.adds d := by
      simp [Entry.moved]
    rw [hmiddle] at hrest
    have hsent' : Entry.sent d (e :: es) = Entry.sent d [e] ++ Entry.sent d es :=
      Entry.sent_append d [e] es
    rw [hsent']
    exact hone.append hrest

end Life

/-! ## Runs -/

namespace Tracker

variable {config : Config} {control : Control} {t : Tracker}

/-- If every mask has a name, then once a call of an incarnation has passed the gate, all later calls
pass it, until an order disables the incarnation. So the chunks of a direction tile its bytes from
this call to the end, if they were moved by whole calls and fit a word. -/
theorem gapless (h : make config control = .ok t) (hnamed : control.IsNamed) (steps : List Step)
    {n : Nat} {past more : List Entry} {e : Entry}
    (hof : (t.chronicle steps).of n = past ++ e :: more)
    (hfree : ∀ x ∈ more, ∀ generation, x.incident ≠ .disabled generation)
    (hsent : e.isSent config control = true) :
    (∀ x ∈ more, x.call?.isSome = true → x.isSent config control = true) ∧
      ∀ d, (∀ x ∈ e :: more, x.adds d ≠ 0 → x.incident.isWhole = true) →
        Entry.moved d ((t.chronicle steps).of n) ≤ maxWord →
        DataChunk.Tiles (Entry.moved d past) (Entry.moved d ((t.chronicle steps).of n))
          (Entry.sent d (e :: more)) := by
  rcases exists_life h steps (n := n) (by simp [hof]) with ⟨status, hlife⟩
  rw [hof] at hlife
  have hlater : ∀ x ∈ more, x.call?.isSome = true → x.isSent config control = true := by
    intro x hx hcall
    rcases List.append_of_mem hx with ⟨between, rest, rfl⟩
    have hsplit : past ++ e :: (between ++ x :: rest) = past ++ e :: between ++ x :: rest := by simp
    rw [hsplit] at hlife
    exact hlife.isSent_of_earlier hnamed
      (fun y hy => hfree y (List.mem_append_left _ hy)) hsent hcall
  refine ⟨hlater, ?_⟩
  intro d hwhole hword
  rw [hof] at hword ⊢
  refine hlife.tiles (make_eq_ok h).2.1 ?_ hwhole hword
  intro x hx hcall
  rcases List.mem_cons.1 hx with rfl | hx
  · exact hsent
  · exact hlater x hx hcall

/-- The request of the upload passes, so the chunks from it on tile all that is written. -/
theorem gapless_upload :
    DataChunk.Tiles 0 70018
      (Entry.sent .egress (((standard.chronicle (Session.upload ⟨7, 3⟩)).of 0).drop 1)) := by
  generalize hall : (standard.chronicle (Session.upload ⟨7, 3⟩)).of 0 = all
  have hincidents : all.map (·.incident) =
      [.opened (Session.connecting ⟨7, 3⟩), .data (Session.requesting ⟨7, 3⟩),
        .sendfile (Session.sending ⟨7, 3⟩), .closed ⟨400⟩] := by
    rw [← hall]
    decide +kernel
  have hbefore : Entry.moved .egress (all.take 1) = 0 := by
    rw [← hall]
    decide +kernel
  have htotal : Entry.moved .egress all = 70018 := by
    rw [← hall]
    decide +kernel
  have hsent : (all.drop 1).head?.any (·.isSent .standard .everything) = true := by
    rw [← hall]
    decide +kernel
  have hnamed : Control.everything.IsNamed := by
    intro p
    cases p <;> decide
  rcases hlast : all.drop 1 with _ | ⟨e, more⟩
  · simp [hlast] at hsent
  · have hof : all = all.take 1 ++ e :: more := by rw [← hlast, List.take_append_drop]
    have hrest : (e :: more).map (·.incident) = [.data (Session.requesting ⟨7, 3⟩),
        .sendfile (Session.sending ⟨7, 3⟩), .closed ⟨400⟩] := by
      rw [← hlast, List.map_drop, hincidents]
      rfl
    have hfree : ∀ x ∈ more, ∀ generation, x.incident ≠ .disabled generation := by
      intro x hx generation horder
      have hmem := List.mem_map_of_mem hx (f := (·.incident))
      rw [(List.cons.inj hrest).2, horder] at hmem
      simp at hmem
    have hwhole : ∀ x ∈ e :: more, x.adds .egress ≠ 0 → x.incident.isWhole = true := by
      intro x hx hadds
      have hmem := List.mem_map_of_mem hx (f := (·.incident))
      rw [hrest] at hmem
      simp only [List.mem_cons, List.not_mem_nil, or_false] at hmem
      rcases hmem with hdata | hfile | hclosed
      · rw [hdata]
        rfl
      · rw [hfile]
        rfl
      · simp [Entry.adds, hclosed, Connection.adds] at hadds
    have htiles := (gapless make_standard hnamed (Session.upload ⟨7, 3⟩) (hall.trans hof) hfree
      (by simpa [hlast] using hsent)).2 .egress hwhole (by rw [hall, htotal]; decide)
    rwa [hall, hbefore, htotal] at htiles

end Tracker

end FlowTrace

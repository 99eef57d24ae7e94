import QuorumPool.Proofs.Cutoff
import QuorumPool.Proofs.Drainees

namespace QuorumPool.Pool

variable {p q : Pool} {i n : Nat} {c : ConnId} {d : Drainer} {config : Config} {a : Action}
  {as bs : List Action} {addresses : List String} {now : Duration}

/-- The action puts the shard back into service. -/
def Reinstates (p : Pool) (a : Action) (i : Nat) : Prop :=
  (p.shard i).available = false ∧ ((p.act a).shard i).available = true

/-- In the run `as ++ a :: bs` someone has drained shard `i` from the action `a` on, which retired the
shard. -/
structure Began (p : Pool) (as : List Action) (a : Action) (bs : List Action) (i : Nat)
    (d : Drainer) : Prop where
  retired : (p.after as).Retired ((p.after as).act a) i
  before : (p.after as).drainedBy i d = false
  since : ∀ cs, cs <+: bs → (p.after (as ++ a :: cs)).drainedBy i d = true

/-- A connection joins the idle queue of shard `i` with the action `a`, waits there in the course of
`bs` and leaves the queue with the action `b`. -/
structure Idles (p : Pool) (a : Action) (bs : List Action) (b : Action) (i : Nat) (c : ConnId) :
    Prop where
  joins : c ∉ (p.shard i).idle
  waits : ∀ cs, cs <+: bs → c ∈ (((p.act a).after cs).shard i).idle
  leaves : c ∉ (((p.act a).after (bs ++ [b])).shard i).idle

/-- After the run the connection is being closed by a drain of the shard that began in its course. -/
def DrainedIn (p : Pool) (as : List Action) (i : Nat) (c : ConnId) : Prop :=
  ∃ d bs a cs, as = bs ++ a :: cs ∧ p.Began bs a cs i d ∧ (p.after as).drainee? i d = some c

/-- After the run `as ++ bs` the connection is being closed by a drain that was begun in the course of
`as`, by a demotion, though the shard was put back into service before `as` was over. -/
def Leftover (p : Pool) (as bs : List Action) (i : Nat) (c : ConnId) : Prop :=
  ∃ d cs a ds, as = cs ++ a :: ds ∧ p.Began cs a (ds ++ bs) i d ∧ (p.after cs).Withdraws a i ∧
    (∃ es b fs, ds = es ++ b :: fs ∧ (p.after (cs ++ a :: es)).Reinstates b i) ∧
    (p.after (as ++ bs)).drainee? i d = some c

/-- Drains close what was idle when the shard was retired and nothing else: a connection leaves its
queue with the step of a get, or by a drain that began while it was there. -/
def DrainsOwn (p : Pool) : Prop :=
  ∀ as a bs b i c, p.Runs (as ++ a :: (bs ++ [b])) → (p.after as).Idles a bs b i c →
    (((p.after as).act a).after bs).stepsGet b = true ∨
      ((p.after as).act a).DrainedIn (bs ++ [b]) i c

section Began

/-- Whoever drains a shard has begun to with an action that retired it, if nobody had before. -/
theorem exists_began (hwf : p.WellFormed) (hcourse : p.Course p.closers) (hp : p.Untouched)
    (hfresh : p.drainedBy i d = false) (hdrains : (p.after as).drainedBy i d = true) :
    ∃ bs a cs, as = bs ++ a :: cs ∧ p.Began bs a cs i d := by
  induction as using List.reverseRecOn with
  | nil => cases hfresh.symm.trans hdrains
  | append_singleton as a ih =>
    have hact := after_concat p as a
    cases hbefore : (p.after as).drainedBy i d with
    | true =>
      obtain ⟨bs, b, cs, rfl, hbegan⟩ := ih hbefore
      refine ⟨bs, b, cs ++ [a], by simp, hbegan.retired, hbegan.before, fun ds hds => ?_⟩
      obtain rfl | hds := List.prefix_concat_iff.mp hds
      · rw [← hdrains]
        simp
      · exact hbegan.since ds hds
    | false =>
      rw [hact] at hdrains
      obtain ⟨c, hc⟩ := Option.isSome_iff_exists.mp ((isSome_drainee? ..).trans hdrains)
      have hretired := retired_of_drainee (hwf.after as) (hcourse.after hwf as)
        (hp.after hcourse hwf as) a d (drainedBy_eq_false_iff.mp hbefore) hc
      refine ⟨as, a, [], rfl, hretired, hbefore, fun ds hds => ?_⟩
      rw [List.prefix_nil.mp hds, hact, hdrains]

/-- A shard that comes to be in service was put into it. -/
theorem exists_reinstates (hbefore : (p.shard i).available = false)
    (hafter : ((p.after as).shard i).available = true) :
    ∃ bs a cs, as = bs ++ a :: cs ∧ (p.after bs).Reinstates a i := by
  induction as generalizing p with
  | nil => cases hbefore.symm.trans hafter
  | cons a as ih =>
    cases hflag : ((p.act a).shard i).available with
    | true => exact ⟨[], a, as, rfl, hbefore, hflag⟩
    | false =>
      obtain ⟨bs, b, cs, rfl, hb⟩ := ih hflag hafter
      exact ⟨a :: bs, b, cs, rfl, hb⟩

/-- A shard that is shut stays so. -/
theorem invariant_closed (i : Nat) : Invariant fun p _ _ => (p.shard i).closed = true where
  perm _ hp := hp
  alike halike hp := by rwa [shard, halike.shards, ← shard]
  move := by
    intro p q h k hs hmove hp
    have hkept {r : Pool} {j : Nat} {f : Shard → Shard} (hr : (r.shard i).closed = true)
        (hf : ∀ s, (f s).closed = s.closed) : ((r.modifyShard j f).shard i).closed = true :=
      (aspect_modifyShard hf i).trans hr
    cases hmove with
    | quiet hquiet => rwa [shard, hquiet.shards, ← shard]
    | score hf => exact hkept hp hf.closed
    | dial => exact hkept (hkept hp fun _ => rfl) fun _ => rfl
    | failDial => exact hkept (hkept hp fun _ => rfl) fun _ => rfl
    | adopt | unlend => exact hp
    | promote | demote => exact hkept (r := { p with numAvailable := _ }) hp fun _ => rfl
    | lend => exact hkept (r := p.modifyConn _ _) hp fun _ => rfl
    | @shut _ j =>
      by_cases hi : i < p.shards.length
      · rw [shard_modifyShard_of_lt hi]
        split
        · rfl
        · exact hp
      · rwa [shard_of_length_le (by simpa using Nat.le_of_not_lt hi),
          ← shard_of_length_le (Nat.le_of_not_lt hi)]
    | _ => exact hkept hp fun _ => rfl
  take hp := hp
  park := by
    intro p h hs _ hp
    cases h <;> exact hp
  tick _ hp := hp
  recount := by
    intro p q hs hrecounted hp
    obtain ⟨t, ht⟩ := hrecounted.shard i
    rwa [ht]

/-- A connection may leave the queue with the very next action. -/
theorem Idles.of_mem {b : Action} (hjoins : c ∉ (p.shard i).idle)
    (hin : c ∈ ((p.act a).shard i).idle) (hout : c ∉ (((p.act a).act b).shard i).idle) :
    p.Idles a [] b i c :=
  ⟨hjoins, fun _ hcs => List.prefix_nil.mp hcs ▸ hin, hout⟩

/-- A connection joins the queue of a shard that is in service, and that stays so. -/
theorem Idles.acceptsIdle {b : Action} (hidles : p.Idles a bs b i c) (hwf : p.WellFormed) :
    (p.shard i).acceptsIdle = true ∧ ¬p.Retired (p.act a) i := by
  have hin : c ∈ ((p.act a).shard i).idle := hidles.waits [] List.nil_prefix
  have hput : a.isPut = true := by
    by_contra hput
    exact hidles.joins (((Trims.act p (Bool.not_eq_true _ ▸ hput)).idle i).subset hin)
  obtain ⟨d, broken, rfl⟩ : ∃ d broken, a = .start (.put d broken) := by
    unfold Action.isPut at hput
    split at hput
    · exact ⟨_, _, rfl⟩
    · cases hput
  refine ⟨?_, not_retired_start p _ i⟩
  cases hlent : p.isLent d with
  | true =>
    obtain hsame | ⟨haccepts, -⟩ := (regains_put hwf hlent broken).idle i
    · exact absurd (hsame ▸ hin) hidles.joins
    · exact haccepts
  | false =>
    have hact : p.act (.start (.put d broken)) = p :=
      congrArg Prod.fst (start_put_of_not_lent hlent broken)
    exact absurd (hact ▸ hin) hidles.joins

/-- A drain that is under way when a connection joins the queue was begun by a demotion, and the shard
was put back into service since. -/
theorem Began.leftover {bs : List Action} (hbegan : p.Began as a bs i d)
    (hwf : p.WellFormed) (hruns : p.Runs (as ++ a :: bs))
    (haccepts : ((p.after (as ++ a :: bs)).shard i).acceptsIdle = true) :
    (p.after as).Withdraws a i ∧
      ∃ cs b ds, bs = cs ++ b :: ds ∧ (p.after (as ++ a :: cs)).Reinstates b i := by
  rw [after_append_cons, Shard.acceptsIdle, Bool.and_eq_true, Bool.not_eq_true'] at haccepts
  obtain hdemoted | ⟨-, hshut⟩ := hbegan.retired
  · obtain ⟨cs, b, ds, rfl, hb⟩ := exists_reinstates hdemoted.2 haccepts.1
    exact ⟨hdemoted, cs, b, ds, rfl, by rwa [after_append_cons]⟩
  · have hrest := (runs_append.mp hruns).2.2
    have hstill := (invariant_closed i).after hrest ((hwf.after as).act a) hshut
    cases haccepts.2.symm.trans hstill

private theorem Began.of_append {bs cs : List Action} (hbegan : p.Began as a (bs ++ cs) i d) :
    p.Began as a bs i d :=
  ⟨hbegan.retired, hbegan.before, fun ds hds => hbegan.since ds (hds.trans (List.prefix_append ..))⟩

/-- What begins in the rest of a run begins there in that of the pool that the rest starts from. -/
theorem Began.rest {b : Action} {bs cs : List Action} (hbegan : p.Began (as ++ b :: bs) a cs i d) :
    ((p.after as).act b).Began bs a cs i d := by
  have hsplit : ∀ ds, p.after (as ++ b :: bs ++ ds) = ((p.after as).act b).after (bs ++ ds) :=
    fun ds => by rw [List.append_assoc, List.cons_append, after_append_cons]
  obtain ⟨hretired, hbefore, hsince⟩ := hbegan
  rw [after_append_cons] at hretired hbefore
  exact ⟨hretired, hbefore, fun ds hds => hsplit (a :: ds) ▸ hsince ds hds⟩

/-- How a connection leaves its queue. -/
theorem Idles.departs {b : Action} (hidles : (p.after as).Idles a bs b i c) (hwf : p.WellFormed)
    (hcourse : p.Course p.closers) (hp : p.Untouched) (hfresh : ∀ d, p.drainedBy i d = false)
    (hruns : p.Runs (as ++ a :: (bs ++ [b]))) :
    (((p.after as).act a).after bs).stepsGet b = true ∨
      ((p.after as).act a).DrainedIn (bs ++ [b]) i c ∨ p.Leftover as (a :: (bs ++ [b])) i c := by
  obtain ⟨haccepts, hstays⟩ := hidles.acceptsIdle (hwf.after as)
  have hwf' := ((hwf.after as).act a).after bs
  have hleaves := hidles.leaves
  rw [after_concat] at hleaves
  obtain hget | ⟨d, hd⟩ := exists_drainee hwf' b (hidles.waits bs List.prefix_rfl) hleaves
  · exact .inl hget
  refine .inr ?_
  rw [← after_concat, ← after_append_cons] at hd
  have hdrains : (p.after (as ++ a :: (bs ++ [b]))).drainedBy i d = true := by
    rw [← isSome_drainee?, hd, Option.isSome_some]
  obtain ⟨cs, e, ds, hsplit, hbegan⟩ := exists_began hwf hcourse hp (hfresh d) hdrains
  -- The drain begins after the connection has joined the queue, or before it has.
  obtain ⟨x, rfl, hx⟩ | ⟨x, rfl, hx⟩ := List.append_eq_append_iff.mp hsplit
  · cases x with
    | nil =>
      obtain ⟨rfl, -⟩ := List.cons.inj hx
      rw [List.append_nil] at hbegan
      exact absurd hbegan.retired hstays
    | cons a' x =>
      obtain ⟨rfl, hrest⟩ := List.cons.inj hx
      rw [after_append_cons] at hd
      exact .inl ⟨d, x, e, ds, hrest, hbegan.rest, hd⟩
  · cases x with
    | nil =>
      obtain ⟨rfl, -⟩ := List.cons.inj hx
      rw [List.append_nil] at hstays
      exact absurd hbegan.retired hstays
    | cons e' x =>
      obtain ⟨rfl, rfl⟩ := List.cons.inj hx
      have hbefore := (runs_append.mp hruns).1
      obtain ⟨hwithdraws, hreinstates⟩ := hbegan.of_append.leftover hwf hbefore haccepts
      exact .inr ⟨d, cs, e, x, rfl, hbegan, hwithdraws, hreinstates, hd⟩

end Began

section Settled

private theorem Idles.lt_length {b : Action} (hidles : p.Idles a bs b i c) :
    i < (p.act a).shards.length := by
  by_contra hi
  have hin : c ∈ ((p.act a).shard i).idle := hidles.waits [] List.nil_prefix
  rw [shard_of_length_le (Nat.le_of_not_lt hi)] at hin
  cases hin

/-- Where no idle connection is kept, none joins a queue. -/
theorem drainsOwn_of_maxIdle (hcreate : create config addresses now = .ok p)
    (hmax : config.maxIdle = 0) : p.DrainsOwn := by
  intro as a bs b i c hruns hidles
  have hwf := WellFormed.of_create hcreate
  rw [List.append_cons] at hruns
  have hbefore := (runs_append.mp hruns).1
  have hcapped := (invariant_capped.after hbefore hwf (capped_of_create hcreate)).idle i
  have hin : c ∈ ((p.after (as ++ [a])).shard i).idle :=
    after_concat p as a ▸ hidles.waits [] List.nil_prefix
  rw [(fixed_after hbefore hwf).1, (stands_of_create hcreate).config, hmax] at hcapped
  rw [List.eq_nil_of_length_eq_zero (Nat.le_zero.mp hcapped)] at hin
  cases hin

private theorem drainedBy_of_create (hcreate : create config addresses now = .ok p) (i : Nat)
    (d : Drainer) : p.drainedBy i d = false := by
  obtain ⟨_, _, rfl⟩ := eq_of_create hcreate
  cases d <;> rfl

theorem Idles.departs_of_create (hcreate : create config addresses now = .ok p) {b : Action}
    (hidles : (p.after as).Idles a bs b i c) (hruns : p.Runs (as ++ a :: (bs ++ [b]))) :
    (((p.after as).act a).after bs).stepsGet b = true ∨
      ((p.after as).act a).DrainedIn (bs ++ [b]) i c ∨ p.Leftover as (a :: (bs ++ [b])) i c :=
  hidles.departs (.of_create hcreate) (course_of_create hcreate) (untouched_of_create hcreate)
    (drainedBy_of_create hcreate i) hruns

/-- Where the quorum is all shards, none is ever demoted, and so no demotion leaves a drain behind. -/
theorem drainsOwn_of_quorum (hcreate : create config addresses now = .ok p)
    (hquorum : config.quorum.numerator = config.quorum.denominator) : p.DrainsOwn := by
  intro as a bs b i c hruns hidles
  obtain hget | hown | ⟨d, cs, e, ds, rfl, -, hwithdraws, -⟩ :=
    hidles.departs_of_create hcreate hruns
  · exact .inl hget
  · exact .inr hown
  have hwf := WellFormed.of_create hcreate
  have hi := hidles.lt_length
  rw [← after_concat] at hi
  rw [List.append_cons] at hruns
  have hjoined := (runs_append.mp hruns).1
  have hdemoted : p.Runs (cs ++ [e]) := by
    rw [show cs ++ e :: ds ++ [a] = cs ++ [e] ++ (ds ++ [a]) by simp] at hjoined
    exact (runs_append.mp hjoined).1
  have hin := available_of_quorum hcreate hquorum hdemoted (i := i)
    (by rwa [(fixed_after hdemoted hwf).2, ← (fixed_after hjoined hwf).2])
  rw [after_concat] at hin
  cases hin.symm.trans hwithdraws.2

end Settled

section Flap

/-- The shard when the first of its idle connections is being closed. -/
def popped (s : Shard) : Shard := { s with idle := s.idle.tail, tally := s.tally.countClose }

/-- The demotion of a shard waits for the close of the first connection that is idle there. -/
theorem exists_demote_waits {rest : List ConnId} (hi : i < p.shards.length)
    (hidle : (p.shard i).idle = c :: rest) (hflips : p.flips i false = true) :
    ∃ journal, p.demote i =
      ({ p.modifyShard i fun s => { popped s with available := false } with
          numAvailable := p.numAvailable - 1, journal }, .waits (.draining i c 0)) := by
  simp only [flips, Bool.false_eq_true, if_false, Bool.and_eq_true] at hflips
  simp only [demote, hflips.1, hflips.2, Bool.not_true, Bool.false_eq_true, if_false]
  have hshard := shard_modifyShard_self (p := { p with numAvailable := p.numAvailable - 1 })
    (f := fun s => { s with available := false }) hi
  rw [drain_of_idle_cons]
  · simp only [count, dropIdle, modifyShard, note, List.modify_modify_eq]
    exact ⟨_, rfl⟩
  · exact (congrArg Shard.idle hshard).trans hidle

/-- A verdict that demotes a shard is a task until what is idle there has been closed. -/
theorem exists_run_demote {rest : List ConnId} (hwf : p.WellFormed) (hi : i < p.shards.length)
    (hidle : (p.shard i).idle = c :: rest) (hflips : p.flips i false = true) :
    ∃ journal, p.after [.start (.mark i false), .resume p.nextTask (.ok ())] =
      { p.modifyShard i fun s => { popped s with available := false } with
        numAvailable := p.numAvailable - 1
        tasks := p.tasks ++ [(p.nextTask, .verdict (.draining i c 0))]
        nextTask := p.nextTask + 1
        journal } := by
  let q : Pool :=
    { p with
      tasks := p.tasks ++ [(p.nextTask, .verdict (.deciding i false))]
      nextTask := p.nextTask + 1 }
  have hstart : (p.start (.mark i false)).1 = q := start_mark hi false
  have hwfq : q.WellFormed := hstart ▸ hwf.act (.start (.mark i false))
  obtain ⟨journal, hdemote⟩ := exists_demote_waits (p := q) hi hidle hflips
  have hadvance : q.advance (.verdict (.deciding i false)) (.ok ()) =
      (q.demote i).map id (·.map .verdict .changed) := rfl
  rw [hdemote] at hadvance
  obtain ⟨journal, hresume⟩ := exists_resume_waits p.tasks [] hwfq rfl hadvance rfl
  refine ⟨journal, ?_⟩
  change ((p.start (.mark i false)).1.resume p.nextTask (.ok ())).1 = _
  rw [hstart, hresume]
  rfl

/-- A shard is taken out of service and put back while the first of its idle connections is being
closed. -/
theorem exists_run_flap {rest : List ConnId} (hwf : p.WellFormed) (hi : i < p.shards.length)
    (hidle : (p.shard i).idle = c :: rest) (hflips : p.flips i false = true) :
    ∃ as, p.Runs as ∧ ∃ numAvailable nextTask journal, p.after as =
      { p.modifyShard i fun s => { popped s with available := true } with
        numAvailable
        tasks := p.tasks ++ [(p.nextTask, .verdict (.draining i c 0))]
        nextTask
        journal } := by
  obtain ⟨journal, hdown⟩ := exists_run_demote hwf hi hidle hflips
  have hwfq := hwf.after [.start (.mark i false), .resume p.nextTask (.ok ())]
  obtain ⟨q, hq⟩ : ∃ q, p.after [.start (.mark i false), .resume p.nextTask (.ok ())] = q :=
    ⟨_, rfl⟩
  rw [hq] at hwfq hdown
  have hlen : q.shards.length = p.shards.length := by
    rw [hdown]
    exact length_shards_modifyShard
  have hshard : q.shard i = { popped (p.shard i) with available := false } := by
    rw [hdown]
    exact shard_modifyShard_self hi
  obtain ⟨hup, journal', hback⟩ := exists_run_mark hwfq (hlen ▸ hi) (by simp)
    (show q.flips i true = true by simp [flips, hshard])
  refine ⟨[.start (.mark i false), .resume p.nextTask (.ok ())] ++
    [.start (.mark i true), .resume q.nextTask (.ok ())],
    runs_append.mpr ⟨runs_mark hwf hi false, hq ▸ hup⟩, q.numAvailable + 1, q.nextTask + 1,
    journal', ?_⟩
  have hshards : (q.modifyShard i fun s => { s with available := true }).shards =
      (p.modifyShard i fun s => { popped s with available := true }).shards := by
    simp only [hdown, modifyShard, List.modify_modify_eq]
    rfl
  calc p.after ([.start (.mark i false), .resume p.nextTask (.ok ())] ++
        [.start (.mark i true), .resume q.nextTask (.ok ())])
      = { q with
          shards := (q.modifyShard i fun s => { s with available := true }).shards
          numAvailable := q.numAvailable + 1
          nextTask := q.nextTask + 1
          journal := journal' } := by rw [after_append, hq, hback]; rfl
    _ = _ := by rw [hshards, hdown]; rfl

/-- The only idle connection of the pool is still being closed when its shard has been taken out of
service and put back. -/
theorem Stands.exists_run_flap {active : Nat → Nat}
    (hp : p.Stands config n (Function.update (fun _ => []) i [c]) active [])
    (hwf : p.WellFormed) (hi : i < n) (hflips : p.flips i false = true) :
    ∃ as t, p.Runs as ∧
      (p.after as).Stands config n (fun _ => []) active [(t, .verdict (.draining i c 0))] ∧
      (p.after as).rotation = p.rotation ∧ (p.after as).conns = p.conns := by
  have hlt : i < p.shards.length := hp.length ▸ hi
  have hidle : (p.shard i).idle = [c] := (hp.holds i hi).1.trans (Function.update_self ..)
  obtain ⟨as, hruns, numAvailable, nextTask, journal, hback⟩ :=
    Pool.exists_run_flap hwf hlt hidle hflips
  have hshard (j : Nat) : (p.after as).shard j =
      if i = j then { popped (p.shard j) with available := true } else p.shard j := by
    rw [hback]
    exact shard_modifyShard hlt j
  refine ⟨as, p.nextTask, hruns, ⟨?_, ?_, ?_, fun j hj => ?_, fun j hj => ?_, ?_⟩, ?_, ?_⟩
  · rw [hback]
    exact hp.config
  · rw [hback]
    exact length_shards_modifyShard.trans hp.length
  · rw [hback]
    exact hp.opened
  · rw [hshard]
    split
    · exact ⟨rfl, (hp.service j hj).2⟩
    · exact hp.service j hj
  · rw [hshard]
    split
    · subst i
      exact ⟨by rw [popped, hidle]; rfl, (hp.holds j hj).2⟩
    · have hholds := hp.holds j hj
      rwa [Function.update_of_ne (Ne.symm ‹_›)] at hholds
  · rw [hback, hp.tasks]
    rfl
  · rw [hback]
    rfl
  · rw [hback]
    rfl

/-- A verdict's drain goes on to the next connection. -/
theorem shard_resume_draining {id : TaskId} {c' : ConnId} {rest : List ConnId} {drained : Nat}
    (ht : p.task? id = some (.verdict (.draining i c drained))) (hi : i < p.shards.length)
    (hidle : (p.shard i).idle = c' :: rest) (reply : Reply) :
    (p.resume id reply).1.shard i = popped (p.shard i) := by
  have hquiet := quiet_noteIdleClose p i reply
  have hshard : (p.noteIdleClose i reply).shard i = p.shard i := by
    rw [shard, hquiet.shards, ← shard]
  have hadvance : (p.advance (.verdict (.draining i c drained)) reply).1 =
      ((p.noteIdleClose i reply).dropIdle i).count i Tally.countClose :=
    congrArg Prod.fst (drain_of_idle_cons (hshard.symm ▸ hidle) (drained + 1))
  rw [shard, shards_resume ht, hadvance, ← shard, count, shard_modifyShard_self, dropIdle,
    shard_modifyShard_self, hshard]
  · rfl
  · rwa [hquiet.shards]
  · rwa [length_shards_dropIdle, hquiet.shards]

/-- Of every pool that keeps idle connections and allows demotions some run leads to a shard in service
that is still being drained, where a connection is lent and nothing is idle. -/
theorem exists_run_leftover (hcreate : create config addresses now = .ok p)
    (hmax : 0 < config.maxIdle) (hquorum : config.quorum.numerator < config.quorum.denominator) :
    ∃ as active t d, ∃ c : ConnId, ∃ u, p.Runs as ∧
      (p.after as).Stands config addresses.length (fun _ => []) active
        [(t, .verdict (.draining 0 d 0))] ∧
      (p.after as).conns[c]? = some ⟨0, true, u⟩ := by
  have hwf := WellFormed.of_create hcreate
  have hn : 0 < addresses.length := List.length_pos_of_ne_nil (eq_of_create hcreate).2.1
  obtain ⟨as, hruns, -, hladen⟩ :=
    (laden_of_create hcreate).exists_run hwf (Nat.le_refl addresses.length)
  -- The first connection comes back, to be closed when its shard is demoted.
  obtain ⟨t, hconn⟩ := hladen.lent 0 hn
  obtain ⟨hback, -⟩ := hladen.stands.start_put hconn rfl hn hmax
  have hrotation := rotation_start_put (p := p.after as) 0 false
  have hput : p.Runs (as ++ [.start (.put 0 false)]) := runs_append.mpr ⟨hruns, trivial, trivial⟩
  have hafter : p.after (as ++ [.start (.put 0 false)]) = ((p.after as).start (.put 0 false)).1 :=
    after_concat ..
  rw [← hafter] at hback hrotation
  -- It still is when the shard has been promoted, and a get is lent what it dials there.
  have hwf' := hwf.after (as ++ [.start (.put 0 false)])
  obtain ⟨bs, t', hflaps, hflapped, hsame, -⟩ := hback.exists_run_flap hwf' hn
    (hback.flips (accounted_after hcreate hput) hn hquorum)
  obtain ⟨cs, u, hdials, -, hdialed, -, hconns⟩ := hflapped.exists_run_dial (hwf'.after bs) hn
    (by rw [visited, hflapped.length, hsame, hrotation, hladen.rotation, Nat.add_zero,
      Nat.mod_self]) (by
      simp only [Shard.hasRoom, (hflapped.holds 0 hn).2, Bool.or_eq_true, beq_iff_eq,
        decide_eq_true_eq, Function.update_self]
      split <;> omega)
  refine ⟨as ++ [.start (.put 0 false)] ++ bs ++ cs, _, t', 0,
    ((p.after (as ++ [.start (.put 0 false)])).after bs).conns.length, u,
    runs_append.mpr ⟨runs_append.mpr ⟨hput, hflaps⟩, by rwa [after_append]⟩,
    by rw [after_append, after_append]; exact hdialed, ?_⟩
  rw [after_append, after_append, hconns]
  exact List.getElem?_concat_length

/-- No drain begins with an action that does not retire the shard. -/
theorem not_drainedIn_singleton (hstays : ¬p.Retired (p.act a) i) : ¬p.DrainedIn [a] i c := by
  rintro ⟨d, bs, b, cs, hsplit, hbegan, -⟩
  obtain ⟨rfl, rfl, rfl⟩ : bs = [] ∧ b = a ∧ cs = [] := by
    simpa [List.singleton_eq_append_iff] using hsplit
  exact hstays hbegan.retired

/-- A drain that a promotion has left behind takes the connection that comes back next. -/
theorem not_drainsOwn (hcreate : create config addresses now = .ok p) (hmax : 0 < config.maxIdle)
    (hquorum : config.quorum.numerator < config.quorum.denominator) : ¬p.DrainsOwn := by
  have hwf := WellFormed.of_create hcreate
  have hn : 0 < addresses.length := List.length_pos_of_ne_nil (eq_of_create hcreate).2.1
  obtain ⟨as, active, t, d, c, u, hruns, hstands, hconn⟩ :=
    exists_run_leftover hcreate hmax hquorum
  obtain ⟨hback, -⟩ := hstands.start_put hconn rfl hn hmax
  have hwf' : ((p.after as).act (.start (.put c false))).WellFormed := (hwf.after as).act _
  have ht : ((p.after as).act (.start (.put c false))).task? t =
      some (.verdict (.draining 0 d 0)) :=
    hwf'.task?_eq (show _ = [] ++ (t, _) :: [] from hback.tasks)
  have hidle : (((p.after as).act (.start (.put c false))).shard 0).idle = [c] :=
    (hback.holds 0 hn).1.trans (Function.update_self ..)
  have hpopped : (((p.after as).act (.start (.put c false))).act (.resume t (.ok ()))).shard 0 =
      popped (((p.after as).act (.start (.put c false))).shard 0) :=
    shard_resume_draining ht (hback.length.symm ▸ hn) hidle (.ok ())
  have hidles : (p.after as).Idles (.start (.put c false)) [] (.resume t (.ok ())) 0 c := by
    refine .of_mem ?_ ?_ ?_
    · rw [(hstands.holds 0 hn).1]
      exact List.not_mem_nil
    · rw [hidle]
      exact List.mem_singleton_self c
    · rw [hpopped, popped, hidle]
      exact List.not_mem_nil
  have hnext : p.Runs (as ++ .start (.put c false) :: ([] ++ [.resume t (.ok ())])) := by
    refine runs_append.mpr ⟨hruns, trivial, .inl ?_, trivial⟩
    rw [call?, ht]
    rfl
  intro hown
  -- The only step since the return goes on with a drain, which is no get and retires nothing.
  obtain hget | hin := hown _ _ _ _ _ _ hnext hidles
  · change stepsGet ((p.after as).act (.start (.put c false))) _ = true at hget
    rw [stepsGet, ht] at hget
    cases hget
  · refine not_drainedIn_singleton (fun hretired => ?_) hin
    obtain ⟨hin, hout⟩ | ⟨hopen, hshut⟩ := hretired
    · cases hin.symm.trans ((congrArg Shard.available hpopped).symm.trans hout)
    · cases hopen.symm.trans ((congrArg Shard.closed hpopped).symm.trans hshut)

end Flap

section Create

/-- A connection joins the idle queue of its shard only while the shard is in service and open. It
leaves the queue with the step of a get, by a drain that a demotion or the close of the shard has begun
since, or by a drain that an earlier demotion has begun and that a promotion of the shard has left
behind. In all runs drains close only their own if and only if no idle connection is kept or no shard
may ever be demoted. -/
theorem drains_own_iff (hcreate : create config addresses now = .ok p) :
    (∀ as a bs b i c, p.Runs (as ++ a :: (bs ++ [b])) → (p.after as).Idles a bs b i c →
      ((p.after as).shard i).acceptsIdle = true ∧
        ((((p.after as).act a).after bs).stepsGet b = true ∨
          ((p.after as).act a).DrainedIn (bs ++ [b]) i c ∨
          p.Leftover as (a :: (bs ++ [b])) i c)) ∧
    (p.DrainsOwn ↔
      config.maxIdle = 0 ∨ config.quorum.numerator = config.quorum.denominator) := by
  refine ⟨fun as a bs b i c hruns hidles => ?_, fun hown => ?_, fun hconfig => ?_⟩
  · have hwf := (WellFormed.of_create hcreate).after as
    exact ⟨(hidles.acceptsIdle hwf).1, hidles.departs_of_create hcreate hruns⟩
  · by_contra hconfig
    rw [not_or] at hconfig
    exact not_drainsOwn hcreate (Nat.pos_of_ne_zero hconfig.1)
      (Nat.lt_of_le_of_ne (eq_of_create hcreate).1.quorum hconfig.2) hown
  · exact hconfig.elim (drainsOwn_of_maxIdle hcreate) (drainsOwn_of_quorum hcreate)

/-- A connection that comes back while the drain of an earlier demotion still closes another one. -/
theorem drains_own_iff_one :
    ∃ p, create { quorum := .none } ["a:1"] .zero = .ok p ∧ ¬p.DrainsOwn ∧
      ∃ as a b, p.Runs (as ++ a :: ([] ++ [b])) ∧ (p.after as).Idles a [] b 0 1 ∧
        ((p.after as).shard 0).acceptsIdle = true ∧ p.Leftover as [a, b] 0 1 := by
  let as : List Action :=
    [.start .get, .resume 0 (.ok ()), .start .get, .resume 1 (.ok ()), .start (.put 0 false),
      .start (.mark 0 false), .resume 2 (.ok ()), .start (.mark 0 true), .resume 3 (.ok ())]
  have hcreate : create { quorum := .none } ["a:1"] .zero = .ok _ := rfl
  obtain ⟨hdeparts, hown⟩ := drains_own_iff hcreate
  refine ⟨_, hcreate, fun hall => absurd (hown.mp hall) (by decide), as, .start (.put 1 false),
    .resume 2 (.ok ()), by decide, .of_mem (by decide) (by decide) (by decide), ?_⟩
  obtain ⟨haccepts, hget | hin | hleft⟩ := hdeparts as (.start (.put 1 false)) []
    (.resume 2 (.ok ())) 0 1 (by decide) (.of_mem (by decide) (by decide) (by decide))
  · exact absurd hget (by decide)
  · exact absurd hin (not_drainedIn_singleton (by unfold Retired; decide))
  · exact ⟨haccepts, hleft⟩

end Create

end QuorumPool.Pool

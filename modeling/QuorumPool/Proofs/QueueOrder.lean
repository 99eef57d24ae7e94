import QuorumPool.Proofs.Chores
import QuorumPool.Proofs.Loans
import QuorumPool.Proofs.Occurrences

namespace QuorumPool

section Latest

variable {α : Type} [DecidableEq α] {l s : List α} {c : α}

/-- An entry that comes again is in its place no more and at the end. -/
theorem dedup_concat (l : List α) (c : α) :
    (l ++ [c]).dedup = l.dedup.filter (· ≠ c) ++ [c] := by
  induction l with
  | nil => simp
  | cons a l ih =>
    rw [List.cons_append]
    by_cases hal : a ∈ l
    · rw [List.dedup_cons_of_mem hal, List.dedup_cons_of_mem (List.mem_append_left _ hal), ih]
    by_cases hac : a = c
    · subst hac
      rw [List.dedup_cons_of_mem (by simp), List.dedup_cons_of_notMem hal, ih]
      simp
    · rw [List.dedup_cons_of_notMem (by simp [hal, hac]), List.dedup_cons_of_notMem hal, ih]
      simp [hac]

private theorem sublist_dedup_concat (hs : s.Sublist l.dedup) (hc : c ∉ s) :
    (s ++ [c]).Sublist (l ++ [c]).dedup := by
  have hkept : s.filter (· ≠ c) = s :=
    List.filter_eq_self.mpr fun d hd => by
      simpa using fun hdc : d = c => hc (hdc ▸ hd)
  rw [dedup_concat]
  exact (hkept ▸ hs.filter (· ≠ c)).append_right [c]

end Latest

namespace Pool

variable {p q r : Pool} {i : Nat} {c d : ConnId}

/-- When the connection was dialed or, if it has come back since, returned for the last time. -/
def lastUsed? (p : Pool) (c : ConnId) : Option Duration := p.conns[c]?.map Conn.lastUsed

/-- A step that takes no connection back. Connections leave the idle queues at their heads only and
none joins, and what is known of the last use of each stays known. -/
structure Trims (p q : Pool) : Prop where
  idle : ∀ i, (q.shard i).idle <:+ (p.shard i).idle
  lastUsed : ∀ c t, p.lastUsed? c = some t → q.lastUsed? c = some t

namespace Trims

theorem of_eq (hidle : ∀ i, (q.shard i).idle = (p.shard i).idle) (hconns : q.conns = p.conns) :
    p.Trims q := by
  refine ⟨fun i => hidle i ▸ List.suffix_rfl, fun c t hc => ?_⟩
  rwa [lastUsed?, hconns]

theorem refl (p : Pool) : p.Trims p := of_eq (fun _ => rfl) rfl

theorem trans (hpq : p.Trims q) (hqr : q.Trims r) : p.Trims r where
  idle i := (hqr.idle i).trans (hpq.idle i)
  lastUsed c t hc := hqr.lastUsed c t (hpq.lastUsed c t hc)

theorem modifyShard {f : Shard → Shard} (hf : ∀ s, (f s).idle <:+ s.idle) :
    p.Trims (p.modifyShard i f) := by
  refine ⟨fun j => ?_, fun _ _ hc => hc⟩
  by_cases hi : i < p.shards.length
  · rw [shard_modifyShard hi]
    split
    · exact hf _
    · exact List.suffix_rfl
  · rw [modifyShard_of_length_le (Nat.le_of_not_lt hi)]

theorem modifyConn {g : Conn → Conn} (hg : ∀ conn, (g conn).lastUsed = conn.lastUsed) :
    p.Trims (p.modifyConn c g) := by
  refine ⟨fun _ => List.suffix_rfl, fun d t hd => ?_⟩
  obtain ⟨conn, hconn, rfl⟩ := Option.map_eq_some_iff.mp hd
  rw [lastUsed?, getElem?_modifyConn, hconn, Option.map_some, Option.map_some]
  split
  · rw [hg]
  · rfl

/-- No chore takes a connection back; one that is dialed has a new number. -/
theorem of_chore (hchore : p.Chore q) : p.Trims q := by
  cases hchore with
  | count | occupySlot | releaseSlot | shut => exact modifyShard fun _ => List.suffix_rfl
  | dropIdle => exact modifyShard fun s => List.tail_suffix s.idle
  | mark => exact modifyConn fun _ => rfl
  | @flag _ numAvailable =>
    exact of_eq (idle_modifyShard (p := { p with numAvailable }) fun _ => rfl) rfl
  | adopt =>
    refine ⟨fun _ => List.suffix_rfl, fun c t hc => ?_⟩
    obtain ⟨conn, hconn, rfl⟩ := Option.map_eq_some_iff.mp hc
    rw [lastUsed?, List.getElem?_append_left (List.getElem?_eq_some_iff.mp hconn).1]
    exact hc
  | note | rotate | stop => exact of_eq (fun _ => rfl) rfl

theorem of_chores (hchores : p.Chores q) : p.Trims q :=
  hchores.keeps refl (fun _ _ _ hpq hqr => hpq.trans hqr) fun _ _ hchore => of_chore hchore

theorem resumeErrand (p : Pool) (due : Duration) (e : Errand) (reply : Reply) :
    p.Trims ((p.resumeErrand e reply).1.setErrand due (p.resumeErrand e reply).2) := by
  obtain ⟨journal, heq⟩ := exists_setErrand_eq (p.resumeErrand e reply).1 due
    (p.resumeErrand e reply).2
  rw [heq]
  exact (of_chores (.resumeErrand p e reply)).trans (of_eq (fun _ => rfl) rfl)

theorem resumeGet (p : Pool) (g : Getting) (reply : Reply) : p.Trims (p.resumeGet g reply).1 := by
  refine trans ?_ (of_chores (.resumeGet p g reply))
  unfold fed
  split
  · rename_i i failed _
    have hpeer := (Twin.recordOutcome (p := p) i failed).peer
    exact of_eq hpeer.idle hpeer.conns
  · exact refl p

section Act

theorem advance (p : Pool) (t : Task) (reply : Reply) : p.Trims (p.advance t reply).1 := by
  cases t with
  | get g => exact resumeGet p g reply
  | put | strayPut | verdict | check | shutdown => exact of_chores (.advance (by simp) reply)

theorem turn (p : Pool) : p.Trims p.turn := by
  obtain ⟨due, e, -, hturn⟩ | ⟨hshards, -⟩ := turn_cases (i := 0) p
  · rw [hturn]
    exact resumeErrand p due e (.ok ())
  · exact of_eq (fun i => by rw [shard, hshards, shard]) conns_turn

/-- Every action takes no connection back, except for a return. -/
theorem act (p : Pool) {a : Action} (hput : a.isPut = false) : p.Trims (p.act a) := by
  cases a with
  | start request =>
    have hbegin : p.Trims (p.begin request).1 := by
      refine of_chores (.begin ?_)
      rintro c broken rfl
      cases hput
    obtain ⟨tasks, nextTask, journal, heq⟩ := exists_start_eq p request
    change p.Trims (p.start request).1
    rw [heq]
    exact hbegin.trans (of_eq (fun _ => rfl) rfl)
  | resume id reply =>
    change p.Trims (p.resume id reply).1
    cases ht : p.task? id with
    | none =>
      simp only [Pool.resume, ht]
      exact refl p
    | some t =>
      obtain ⟨tasks, journal, heq⟩ := exists_resume_eq ht reply
      rw [heq]
      exact (advance p t reply).trans (of_eq (fun _ => rfl) rfl)
  | turn => exact turn p
  | resumeChecker reply =>
    change p.Trims (p.resumeChecker reply)
    unfold Pool.resumeChecker
    split
    · split
      · exact resumeErrand p _ _ reply
      · exact refl p
    · exact refl p
  | setTime | abandon => exact of_eq (fun _ => rfl) rfl
  | takeStats =>
    refine of_eq (fun i => ?_) rfl
    obtain ⟨t, ht⟩ := (recounted_takeStats p).shard i
    exact (congrArg Shard.idle ht).trans rfl
  | takeShardStats i => exact of_chore .count

end Act

end Trims

section Put

/-- A step that takes a connection back: it joins the end of a queue or none, and it was used just
now. -/
structure Regains (p : Pool) (c : ConnId) (q : Pool) : Prop where
  idle : ∀ i, (q.shard i).idle = (p.shard i).idle ∨
    (p.shard i).acceptsIdle = true ∧ (q.shard i).idle = (p.shard i).idle ++ [c]
  lastUsed : ∀ d, q.lastUsed? d = if c = d then some p.now else p.lastUsed? d

/-- A connection joins the queue of a shard in service only. -/
theorem idle_put {lastUsed : Duration} (hi : i < p.shards.length)
    (hconn : p.conns[c]? = some ⟨i, true, lastUsed⟩) (broken : Bool) (j : Nat) :
    ((p.put c broken).1.shard j).idle = (p.shard j).idle ∨
      (p.shard j).acceptsIdle = true ∧
        ((p.put c broken).1.shard j).idle = (p.shard j).idle ++ [c] := by
  have hreclaim := idle_reclaim (p := p) i c broken
  have hlength : (p.reclaim i c broken).shards.length = p.shards.length :=
    (Does.reclaim p i c broken).length
  simp only [put, hconn, acceptsIdle_reclaim]
  split
  · exact .inl (((Twin.count (t := Tally.countClose)).peer.idle j).trans (hreclaim j))
  rename_i hsound
  split
  · rw [idle_enqueue (hlength ▸ hi), hreclaim]
    split
    · rename_i hij
      exact .inr ⟨hij ▸ by simpa using (not_or.mp (mt (Bool.or_eq_true ..).mpr hsound)).2, rfl⟩
    · exact .inl rfl
  · have hcounts := (Twin.note (p := p.reclaim i c broken)
      (.idleQueueFull ((p.reclaim i c broken).shard i).address)).trans
        ((Twin.count (i := i) (t := Tally.countEviction)).trans
          (.count (i := i) (t := Tally.countClose)))
    exact .inl ((hcounts.peer.idle j).trans (hreclaim j))

private theorem lastUsed?_put (hlent : p.isLent c = true) (broken : Bool) (d : ConnId) :
    (p.put c broken).1.lastUsed? d = if c = d then some p.now else p.lastUsed? d := by
  obtain ⟨conn, hconn, hborrowed⟩ := (Option.any_eq_true ..).mp hlent
  rw [lastUsed?, (put_of_lent hconn hborrowed broken).1, conns_reclaim, getElem?_modifyConn]
  split
  · rename_i hcd
    subst hcd
    rw [hconn]
    rfl
  · simp [lastUsed?]

theorem regains_put (hwf : p.WellFormed) (hlent : p.isLent c = true) (broken : Bool) :
    p.Regains c (p.act (.start (.put c broken))) := by
  obtain ⟨i, lastUsed, hconn⟩ := exists_conn_of_isLent hlent
  obtain ⟨tasks, nextTask, journal, hstart⟩ := exists_start_eq p (.put c broken)
  change p.Regains c (p.start (.put c broken)).1
  rw [hstart]
  exact ⟨idle_put (hwf.conns _ (List.mem_of_getElem? hconn)) hconn broken,
    lastUsed?_put hlent broken⟩

end Put

section Order

/-- The connection that the action returns, if the pool takes it back. -/
def takenBack (p : Pool) : Action → List ConnId
  | .start (.put c broken) => if p.takesBack c broken then [c] else []
  | _ => []

/-- Connection `c` was used no later than connection `d`. -/
def UsedBefore (p : Pool) (c d : ConnId) : Prop :=
  ∃ s t, p.lastUsed? c = some s ∧ p.lastUsed? d = some t ∧ s ≤ t

/-- Idle connections are in the order of their latest returns, when the connections `cs` came back in
this order, and so in the order in which they were used. -/
structure Ordered (p : Pool) (cs : List ConnId) : Prop where
  latest : ∀ i, (p.shard i).idle.Sublist cs.dedup
  sorted : ∀ i, (p.shard i).idle.Pairwise p.UsedBefore
  past : ∀ i, ∀ c ∈ (p.shard i).idle, ∃ t, p.lastUsed? c = some t ∧ t ≤ p.now

variable {cs : List ConnId} {as : List Action} {a : Action}

theorem Trims.usedBefore (htrims : p.Trims q) (hcd : p.UsedBefore c d) : q.UsedBefore c d := by
  obtain ⟨s, t, hs, ht, hst⟩ := hcd
  exact ⟨s, t, htrims.lastUsed c s hs, htrims.lastUsed d t ht, hst⟩

theorem Ordered.trims (hp : p.Ordered cs) (htrims : p.Trims q) (hnow : p.now ≤ q.now) :
    q.Ordered cs := by
  refine ⟨fun i => (htrims.idle i).sublist.trans (hp.latest i), fun i => ?_, fun i c hc => ?_⟩
  · exact ((hp.sorted i).sublist (htrims.idle i).sublist).imp htrims.usedBefore
  · obtain ⟨t, ht, hpast⟩ := hp.past i c ((htrims.idle i).subset hc)
    exact ⟨t, htrims.lastUsed c t ht, Nat.le_trans hpast hnow⟩

/-- A connection that comes back to no queue that holds it keeps the order. -/
theorem Ordered.regains (hp : p.Ordered cs) (hout : ∀ i, c ∉ (p.shard i).idle)
    (hregains : p.Regains c q) (hnow : p.now ≤ q.now) : q.Ordered (cs ++ [c]) := by
  have hself : q.lastUsed? c = some p.now := by rw [hregains.lastUsed, if_pos rfl]
  have hothers : ∀ i, ∀ d ∈ (p.shard i).idle, q.lastUsed? d = p.lastUsed? d := fun i d hd => by
    rw [hregains.lastUsed, if_neg]
    rintro rfl
    exact hout i hd
  have hsorted : ∀ i, (p.shard i).idle.Pairwise q.UsedBefore := by
    intro i
    refine (hp.sorted i).imp_of_mem fun hd he hde => ?_
    rwa [UsedBefore, hothers i _ hd, hothers i _ he]
  have hpast : ∀ i, ∀ d ∈ (p.shard i).idle, ∃ t, q.lastUsed? d = some t ∧ t ≤ p.now := by
    intro i d hd
    rw [hothers i d hd]
    exact hp.past i d hd
  have hlatest : ∀ i, ((p.shard i).idle ++ [c]).Sublist (cs ++ [c]).dedup :=
    fun i => sublist_dedup_concat (hp.latest i) (hout i)
  refine ⟨fun i => ?_, fun i => ?_, fun i d hd => ?_⟩
  · obtain hi | ⟨-, hi⟩ := hregains.idle i
    · exact hi ▸ (List.sublist_append_left _ _).trans (hlatest i)
    · exact hi ▸ hlatest i
  · obtain hi | ⟨-, hi⟩ := hregains.idle i
    · exact hi ▸ hsorted i
    rw [hi, List.pairwise_append]
    refine ⟨hsorted i, List.pairwise_singleton _ _, fun d hd e he => ?_⟩
    obtain ⟨t, ht, hle⟩ := hpast i d hd
    exact ⟨t, p.now, ht, List.mem_singleton.mp he ▸ hself, hle⟩
  · have hmem : d ∈ (p.shard i).idle ++ [c] := by
      obtain hi | ⟨-, hi⟩ := hregains.idle i
      · exact List.mem_append_left _ (hi ▸ hd)
      · exact hi ▸ hd
    obtain hd | hd := List.mem_append.mp hmem
    · obtain ⟨t, ht, hle⟩ := hpast i d hd
      exact ⟨t, ht, Nat.le_trans hle hnow⟩
    · exact ⟨p.now, List.mem_singleton.mp hd ▸ hself, hnow⟩

/-- Time never runs back. -/
theorem invariant_now_le (t : Duration) : Invariant fun p _ _ => t ≤ p.now where
  perm _ hp := hp
  alike halike hp := halike.now ▸ hp
  move := by
    intro p q h k hs hmove hp
    cases hmove with
    | quiet hquiet => exact hquiet.now ▸ hp
    | _ => exact hp
  take hp := hp
  park := by
    intro p h hs _ hp
    cases h <;> exact hp
  tick hle hp := Nat.le_trans hp hle
  recount hrecounted hp := hrecounted.now ▸ hp

theorem Ordered.act (hp : p.Ordered cs) (hwf : p.WellFormed)
    (hconserved : p.Conserved .free p.held) (hadmits : p.Admits a) :
    (p.act a).Ordered (cs ++ p.takenBack a) := by
  have hruns : p.Runs [a] := ⟨hadmits, trivial⟩
  have hnow : p.now ≤ (p.act a).now := (invariant_now_le p.now).after hruns hwf (Nat.le_refl _)
  by_cases hput : a.isPut = false
  · have hnone : p.takenBack a = [] := by
      unfold takenBack
      split
      · cases hput
      · rfl
    rw [hnone, List.append_nil]
    exact hp.trims (.act p hput) hnow
  obtain ⟨c, broken, rfl⟩ : ∃ c broken, a = .start (.put c broken) := by
    unfold Action.isPut at hput
    split at hput
    · exact ⟨_, _, rfl⟩
    · exact absurd rfl hput
  cases hlent : p.isLent c with
  | true =>
    have hout : ∀ i, c ∉ (p.shard i).idle := (hconserved.lent hlent).2.1
    rw [takenBack, (takesBack_of_lent hlent broken).1, if_pos rfl]
    exact hp.regains hout (regains_put hwf hlent broken) hnow
  | false =>
    have hsame : p.start (.put c broken) = (p, .done (.refused .invalidReturn)) :=
      start_put_of_not_lent hlent broken
    have hact : p.act (.start (.put c broken)) = p := congrArg Prod.fst hsame
    have hnone : p.takenBack (.start (.put c broken)) = [] := by simp [takenBack, takesBack, hsame]
    rw [hact, hnone, List.append_nil]
    exact hp

/-- Nothing idles in a fresh pool. -/
theorem idle_of_create {config : Config} {addresses : List String} {now : Duration}
    (hcreate : create config addresses now = .ok p) (i : Nat) : (p.shard i).idle = [] := by
  by_cases hi : i < addresses.length
  · rw [shard_of_create hcreate hi]
  · rw [shard_of_length_le (length_shards_of_create hcreate ▸ Nat.le_of_not_lt hi)]
    rfl

theorem ordered_after {config : Config} {addresses : List String} {now : Duration}
    (hcreate : create config addresses now = .ok p) (hruns : p.Runs as) :
    (p.after as).Ordered (along takenBack p as) := by
  have hwf := WellFormed.of_create hcreate
  induction as using List.reverseRecOn with
  | nil =>
    refine ⟨fun i => ?_, fun i => ?_, fun i c hc => ?_⟩
    · rw [after, idle_of_create hcreate]
      exact List.nil_sublist _
    · rw [after, idle_of_create hcreate]
      exact .nil
    · rw [after, idle_of_create hcreate] at hc
      cases hc
  | append_singleton as a ih =>
    obtain ⟨hbefore, hadmits, -⟩ := runs_append.mp hruns
    rw [after_concat, along_concat]
    exact (ih hbefore).act (hwf.after as)
      (invariant_conserved.after hbefore hwf (conserved_of_create hcreate)) hadmits

end Order

end Pool

end QuorumPool

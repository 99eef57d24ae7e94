import QuorumPool.Proofs.Reuse

namespace QuorumPool

/-- What one get was lent, and how often its holder has returned it and was not refused. -/
structure Loan where
  conn : ConnId
  returns : Nat := 0
deriving DecidableEq, Repr

def Loan.giveBack (loan : Loan) : Loan := { loan with returns := loan.returns + 1 }

/-- A pool and its loans, in the order in which they were made. -/
structure Ledger where
  pool : Pool
  loans : List Loan := []

/-- The ledger of a pool that has made no loans yet. -/
def Pool.ledger (p : Pool) : Ledger := { pool := p }

/-- What happens to a pool whose connections are returned by the holders of its loans. -/
inductive Deed where
  | act (action : Action)
  /-- The holder of a loan, which goes by its number, returns the connection. -/
  | giveBack (loan : Nat) (broken : Bool)

/-- Whether a return of the connection is accepted. -/
def Pool.takesBack (p : Pool) (c : ConnId) (broken : Bool) : Bool :=
  (p.start (.put c broken)).2 ≠ .done (.refused .invalidReturn)

namespace Pool

variable {p : Pool} {c : ConnId}

/-- A connection that is not lent is not taken back, and nothing changes. -/
theorem start_put_of_not_lent (hlent : p.isLent c = false) (broken : Bool) :
    p.start (.put c broken) = (p, .done (.refused .invalidReturn)) := by
  simp only [start, begin, put_of_not_lent hlent, Prod.map, Progress.map]
  rfl

/-- A connection that is lent is taken back. -/
theorem put_of_lent {conn : Conn} (hconn : p.conns[c]? = some conn)
    (hborrowed : conn.borrowed = true) (broken : Bool) :
    (p.put c broken).1.conns = (p.reclaim conn.shard c broken).conns ∧
      (p.put c broken).2 ≠ .done (.error .invalidReturn) := by
  obtain ⟨i, borrowed, lastUsed⟩ := conn
  dsimp only at hborrowed
  subst hborrowed
  simp only [put, hconn]
  split
  · exact ⟨rfl, by simp⟩
  split
  · exact ⟨rfl, by simp⟩
  · exact ⟨rfl, by simp⟩

theorem conns_reclaim (i : Nat) (c : ConnId) (broken : Bool) : (p.reclaim i c broken).conns =
    (p.modifyConn c fun conn => { conn with borrowed := false, lastUsed := p.now }).conns := by
  let q := p.modifyConn c fun conn => { conn with borrowed := false, lastUsed := p.now }
  have hrecord : q.Twin (q.recordOutcome i broken) := .recordOutcome i broken
  exact hrecord.conns

theorem takesBack_of_lent (hlent : p.isLent c = true) (broken : Bool) :
    p.takesBack c broken = true ∧
      ∀ d, (p.start (.put c broken)).1.isLent d = (p.isLent d && decide (d ≠ c)) := by
  obtain ⟨conn, hconn, hborrowed⟩ := (Option.any_eq_true ..).mp hlent
  obtain ⟨hconns, haccepted⟩ := put_of_lent hconn hborrowed broken
  constructor
  · have hanswer : (p.begin (.put c broken)).2 ≠ .done (.refused .invalidReturn) := by
      intro hdone
      obtain ⟨w, hput, hw⟩ := Progress.map_eq_done.mp hdone
      cases w with
      | ok _ => cases hw
      | error e =>
        obtain rfl := Answer.refused.inj hw
        exact haccepted hput
    rw [takesBack, decide_eq_true_eq]
    intro hstart
    apply hanswer
    rw [← answer?_start_eq_some_iff, answer?, hstart]
  · intro d
    have hstart : (p.start (.put c broken)).1.conns =
        (p.modifyConn c fun conn => { conn with borrowed := false, lastUsed := p.now }).conns :=
      (conns_start _).trans (hconns.trans (conns_reclaim conn.shard c broken))
    have hmodify := isLent_modifyConn
      (g := fun conn => { conn with borrowed := false, lastUsed := p.now }) (b := false)
      (fun _ => rfl) (List.getElem?_eq_some_iff.mp hconn).1 d
    rw [isLent, hstart, ← isLent, hmodify]
    by_cases hcd : c = d
    · simp [hcd]
    · simp [hcd, Ne.symm hcd]

end Pool

namespace Ledger

/-- The ledger after the deed. -/
def act (l : Ledger) : Deed → Ledger
  | .act a =>
    { pool := l.pool.act a
      loans := l.loans ++ (l.pool.lends? a).toList.map fun c => { conn := c } }
  | .giveBack k broken =>
    match l.loans[k]? with
    | none => l
    | some loan =>
      { pool := (l.pool.start (.put loan.conn broken)).1
        loans := if l.pool.takesBack loan.conn broken then l.loans.modify k Loan.giveBack
          else l.loans }

/-- Whether the deed may come next: only holders of loans return connections. -/
def Admits (l : Ledger) : Deed → Prop
  | .act a => l.pool.Admits a ∧ a.isPut = false
  | .giveBack k _ => k < l.loans.length

instance (l : Ledger) : (d : Deed) → Decidable (l.Admits d)
  | .act a => inferInstanceAs (Decidable (l.pool.Admits a ∧ a.isPut = false))
  | .giveBack k _ => inferInstanceAs (Decidable (k < l.loans.length))

/-- The ledger after the deeds, in their order. -/
def after (l : Ledger) : List Deed → Ledger
  | [] => l
  | d :: ds => (l.act d).after ds

/-- Whether each of the deeds may come next when its turn comes. -/
def Runs (l : Ledger) : List Deed → Prop
  | [] => True
  | d :: ds => l.Admits d ∧ (l.act d).Runs ds

instance decidableRuns (l : Ledger) : (ds : List Deed) → Decidable (l.Runs ds)
  | [] => inferInstanceAs (Decidable True)
  | d :: ds =>
    have := decidableRuns (l.act d) ds
    inferInstanceAs (Decidable (l.Admits d ∧ (l.act d).Runs ds))

/-- The loans of the connection. -/
def loansOf (l : Ledger) (c : ConnId) : List Loan := l.loans.filter (·.conn = c)

/-- The loans that were not returned. -/
def outstanding (l : Ledger) : List Loan := l.loans.filter (·.returns = 0)

variable {l m : Ledger} {c : ConnId}

private theorem after_append (l : Ledger) (ds es : List Deed) :
    l.after (ds ++ es) = (l.after ds).after es := by
  induction ds generalizing l with
  | nil => rfl
  | cons d ds ih => exact ih (l.act d)

private theorem runs_append {ds es : List Deed} :
    l.Runs (ds ++ es) ↔ l.Runs ds ∧ (l.after ds).Runs es := by
  induction ds generalizing l with
  | nil => simp [Runs, after]
  | cons d ds ih => simp only [List.cons_append, Runs, after, ih, and_assoc]

private theorem pool_after_map (l : Ledger) (as : List Action) :
    (l.after (as.map .act)).pool = l.pool.after as := by
  induction as generalizing l with
  | nil => rfl
  | cons a as ih => exact ih (l.act (.act a))

private theorem runs_map {as : List Action} (hruns : l.pool.Runs as)
    (hputs : ∀ a ∈ as, a.isPut = false) :
    l.Runs (as.map .act) := by
  induction as generalizing l with
  | nil => trivial
  | cons a as ih =>
    obtain ⟨hadmits, hruns⟩ := hruns
    refine ⟨⟨hadmits, hputs a List.mem_cons_self⟩, ih hruns fun b hb => ?_⟩
    exact hputs b (List.mem_cons_of_mem a hb)

private theorem loans_subset_after_map (l : Ledger) (as : List Action) :
    l.loans ⊆ (l.after (as.map .act)).loans := by
  induction as generalizing l with
  | nil => exact fun _ hloan => hloan
  | cons a as ih => exact fun _ hloan => ih _ (List.mem_append_left _ hloan)

/-- Each connection was lent as often as it was taken back, and once more while it is lent. -/
def Balanced (l : Ledger) : Prop := ∀ c, (l.loansOf c).length =
  ((l.loansOf c).map Loan.returns).sum + (l.pool.isLent c).toNat

/-- A ledger of a pool that was fresh as `p`. -/
structure Kept (p : Pool) (l : Ledger) : Prop where
  reached : ∃ as, p.Runs as ∧ l.pool = p.after as
  known : ∀ loan ∈ l.loans, (loan.conn : Nat) < l.pool.conns.length
  balanced : l.Balanced

theorem loansOf_act (l : Ledger) (a : Action) (c : ConnId) :
    (l.act (.act a)).loansOf c =
      l.loansOf c ++ if l.pool.lends? a = some c then [{ conn := c }] else [] := by
  simp only [loansOf, act, List.filter_append]
  cases hlends : l.pool.lends? a with
  | none => simp
  | some d => by_cases hdc : d = c <;> simp [hdc]

theorem sum_returns_giveBack {loans : List Loan} {k : Nat} {loan : Loan}
    (hloan : loans[k]? = some loan) (c : ConnId) :
    ((loans.modify k Loan.giveBack).filter (·.conn = c)).length =
        (loans.filter (·.conn = c)).length ∧
      (((loans.modify k Loan.giveBack).filter (·.conn = c)).map Loan.returns).sum =
        ((loans.filter (·.conn = c)).map Loan.returns).sum + if loan.conn = c then 1 else 0 := by
  obtain ⟨hk, hget⟩ := List.getElem?_eq_some_iff.mp hloan
  obtain ⟨pre, old, post, hsplit, hlen, hmodify⟩ := List.exists_of_modify Loan.giveBack hk
  have hold : old = loan := by
    rw [← hget]
    simp [hsplit, ← hlen]
  rw [hmodify, hsplit, hold]
  have hconn : loan.giveBack.conn = loan.conn := rfl
  have hreturns : loan.giveBack.returns = loan.returns + 1 := rfl
  by_cases hc : loan.conn = c
  · simp [hconn, hc, hreturns]
    omega
  · simp [hconn, hc]

private theorem conn_mem_giveBack {loans : List Loan} {k : Nat} {loan : Loan}
    (hloan : loan ∈ loans.modify k Loan.giveBack) : ∃ old ∈ loans, old.conn = loan.conn := by
  obtain ⟨j, hj⟩ := List.mem_iff_getElem?.mp hloan
  rw [List.getElem?_modify] at hj
  obtain ⟨old, hold, rfl⟩ := Option.map_eq_some_iff.mp hj
  refine ⟨old, List.mem_of_getElem? hold, ?_⟩
  split <;> rfl

/-- A return of a connection that is not lent changes nothing. -/
theorem giveBack_of_not_lent {k : Nat} {loan : Loan} {broken : Bool}
    (hloan : l.loans[k]? = some loan) (hlent : l.pool.isLent loan.conn = false) :
    l.act (.giveBack k broken) = l := by
  have hstart := Pool.start_put_of_not_lent hlent broken
  simp [act, hloan, hstart, Pool.takesBack]

namespace Kept

variable {p : Pool} {config : Config} {addresses : List String} {now : Duration}

theorem wellFormed (hl : Kept p l) (hwf : p.WellFormed) : l.pool.WellFormed := by
  obtain ⟨as, -, hpool⟩ := hl.reached
  exact hpool ▸ hwf.after as

theorem conserved (hl : Kept p l) (hcreate : Pool.create config addresses now = .ok p) :
    l.pool.Conserved .free l.pool.held := by
  obtain ⟨as, hruns, hpool⟩ := hl.reached
  rw [hpool]
  exact Pool.invariant_conserved.after hruns (.of_create hcreate) (Pool.conserved_of_create hcreate)

/-- What a deed does to the pool, it does by an action. -/
theorem reached_act (hl : Kept p l) {a : Action} (hadmits : l.pool.Admits a) :
    ∃ as, p.Runs as ∧ l.pool.act a = p.after as := by
  obtain ⟨as, hruns, hpool⟩ := hl.reached
  refine ⟨as ++ [a], Pool.runs_append.mpr ⟨hruns, hpool ▸ hadmits, trivial⟩, ?_⟩
  rw [Pool.after_append, ← hpool]
  rfl

theorem extends_act (hwf : l.pool.WellFormed) {a : Action} (hadmits : l.pool.Admits a) :
    l.pool.Extends (l.pool.act a) := by
  have hruns : l.pool.Runs [a] := ⟨hadmits, trivial⟩
  exact (Pool.invariant_extends l.pool).after hruns hwf (.refl _)

theorem act (hl : Kept p l) (hcreate : Pool.create config addresses now = .ok p) {a : Action}
    (hadmits : l.pool.Admits a) (hput : a.isPut = false) : Kept p (l.act (.act a)) := by
  have hwf := hl.wellFormed (.of_create hcreate)
  have hlends := Pool.lends_act hwf (hl.conserved hcreate) hput
  have hextends := extends_act hwf hadmits
  refine ⟨hl.reached_act hadmits, fun loan hloan => ?_, fun c => ?_⟩
  · obtain hloan | hloan := List.mem_append.mp hloan
    · exact hextends.lt_length (hl.known loan hloan)
    · obtain ⟨c, hc, rfl⟩ := List.mem_map.mp hloan
      obtain ⟨i, -, hhome⟩ := hlends.home c (Option.mem_toList.mp hc)
      exact Pool.lt_length_of_home hhome
  · have hbalanced := hl.balanced c
    have hlent := hlends.isLent c
    rw [loansOf_act]
    change _ = _ + ((l.pool.act a).isLent c).toNat
    rw [hlent]
    split
    · rename_i hnew
      rw [hlends.fresh c hnew] at hbalanced ⊢
      simpa [hnew] using hbalanced
    · rename_i hold
      simpa [hold] using hbalanced

theorem giveBack (hl : Kept p l) (hcreate : Pool.create config addresses now = .ok p) (k : Nat)
    (broken : Bool) : Kept p (l.act (.giveBack k broken)) := by
  have hwf := hl.wellFormed (.of_create hcreate)
  cases hloan : l.loans[k]? with
  | none =>
    simp only [Ledger.act, hloan]
    exact hl
  | some loan =>
    cases hlent : l.pool.isLent loan.conn with
    | false =>
      rw [giveBack_of_not_lent hloan hlent]
      exact hl
    | true =>
      have hadmits : l.pool.Admits (.start (.put loan.conn broken)) := trivial
      have hextends := extends_act hwf hadmits
      obtain ⟨haccepts, hreturned⟩ := Pool.takesBack_of_lent hlent broken
      simp only [Ledger.act, hloan, haccepts, if_true]
      refine ⟨hl.reached_act hadmits, fun loan' hloan' => ?_, fun c => ?_⟩
      · obtain ⟨old, hold, hconn⟩ := conn_mem_giveBack hloan'
        exact hconn ▸ hextends.lt_length (hl.known old hold)
      · obtain ⟨hlength, hsum⟩ := sum_returns_giveBack hloan c
        have hbalanced := hl.balanced c
        simp only [loansOf] at hbalanced ⊢
        rw [hlength, hsum, hbalanced, hreturned]
        by_cases hc : loan.conn = c
        · simp [← hc, hlent]
        · simp [hc, Ne.symm hc]

theorem after (hl : Kept p l) (hcreate : Pool.create config addresses now = .ok p)
    {ds : List Deed} (hruns : l.Runs ds) : Kept p (l.after ds) := by
  induction ds generalizing l with
  | nil => exact hl
  | cons d ds ih =>
    obtain ⟨hadmits, hruns⟩ := hruns
    cases d with
    | act a => exact ih (hl.act hcreate hadmits.1 hadmits.2) hruns
    | giveBack k broken => exact ih (hl.giveBack hcreate k broken) hruns

/-- Where no idle connection is kept, no connection is lent a second time. -/
theorem single_after (hl : Kept p l) (hcreate : Pool.create config addresses now = .ok p)
    (hmax : config.maxIdle = 0) (hsingle : ∀ c, (l.loansOf c).length ≤ 1) {ds : List Deed}
    (hruns : l.Runs ds) (c : ConnId) : ((l.after ds).loansOf c).length ≤ 1 := by
  induction ds generalizing l with
  | nil => exact hsingle c
  | cons d ds ih =>
    obtain ⟨hadmits, hruns⟩ := hruns
    cases d with
    | act a =>
      refine ih (hl.act hcreate hadmits.1 hadmits.2) (fun c => ?_) hruns
      rw [loansOf_act]
      split
      · rename_i hlends
        obtain ⟨as, has, hpool⟩ := hl.reached
        rw [hpool] at hlends
        have hfresh := Pool.length_le_of_lends hcreate hmax
          (Pool.runs_append.mpr ⟨has, hpool ▸ hadmits.1, trivial⟩) hlends
        -- The connection has just been dialed, and no loan is of it yet.
        have hnone : l.loansOf c = [] := by
          rw [loansOf, List.filter_eq_nil_iff]
          intro loan hloan hc
          have hlt := hl.known loan hloan
          rw [of_decide_eq_true hc, hpool] at hlt
          exact Nat.lt_irrefl _ (Nat.lt_of_lt_of_le hlt hfresh)
        simp [hnone]
      · simpa using hsingle c
    | giveBack k broken =>
      refine ih (hl.giveBack hcreate k broken) (fun c => ?_) hruns
      cases hloan : l.loans[k]? with
      | none =>
        simp only [Ledger.act, hloan]
        exact hsingle c
      | some loan =>
        simp only [Ledger.act, hloan, loansOf]
        split
        · rw [(sum_returns_giveBack hloan c).1]
          exact hsingle c
        · exact hsingle c

end Kept

/-- Loans of each connection that are not returned, where none was returned twice. -/
theorem countP_outstanding {loans : List Loan} (honce : ∀ loan ∈ loans, loan.returns ≤ 1) :
    loans.countP (·.returns = 0) + (loans.map Loan.returns).sum = loans.length := by
  induction loans with
  | nil => rfl
  | cons loan loans ih =>
    have hrest := ih fun loan' hloan' => honce loan' (List.mem_cons_of_mem loan hloan')
    have hone := honce loan List.mem_cons_self
    rw [List.countP_cons, List.map_cons, List.sum_cons, List.length_cons, ← hrest]
    obtain hzero | hone : loan.returns = 0 ∨ loan.returns = 1 := by omega
    · simp [hzero]
      omega
    · simp [hone]
      omega

/-- Every connection that is lent is lent under some loan. -/
theorem Balanced.exists_loan (hl : l.Balanced) (hlent : l.pool.isLent c = true) :
    ∃ (k : Nat) (loan : Loan), l.loans[k]? = some loan ∧ loan.conn = c := by
  have hpos : 0 < (l.loansOf c).length := by
    rw [hl c, hlent, Bool.toNat_true]
    exact Nat.succ_pos _
  obtain ⟨loan, hloan⟩ := List.exists_mem_of_length_pos hpos
  obtain ⟨hmem, hconn⟩ := List.mem_filter.mp hloan
  obtain ⟨k, hk⟩ := List.mem_iff_getElem?.mp hmem
  exact ⟨k, loan, hk, of_decide_eq_true hconn⟩

/-- As long as no loan has been returned twice, the loans that are outstanding are of different
connections. -/
theorem Balanced.nodup_outstanding (hl : l.Balanced) (honce : ∀ loan ∈ l.loans, loan.returns ≤ 1) :
    (l.outstanding.map Loan.conn).Nodup := by
  rw [List.nodup_iff_count_le_one]
  intro c
  have hcount : (l.outstanding.map Loan.conn).count c = (l.loansOf c).countP (·.returns = 0) := by
    rw [List.count, List.countP_map, outstanding, loansOf, List.countP_filter, List.countP_filter]
    refine List.countP_congr fun loan _ => ?_
    simp [and_comm]
  have hrest := countP_outstanding fun loan (hloan : loan ∈ l.loansOf c) =>
    honce loan (List.mem_filter.mp hloan).1
  have hbalanced := hl c
  have hlent : (l.pool.isLent c).toNat ≤ 1 := Bool.toNat_le _
  omega

/-- Every loan is returned once, a second return of it is refused and changes nothing, and the
loans that are outstanding are of different connections. -/
structure Exclusive (l : Ledger) : Prop where
  once : ∀ loan ∈ l.loans, loan.returns ≤ 1
  refused : ∀ loan ∈ l.loans, 0 < loan.returns → ∀ broken,
    l.pool.start (.put loan.conn broken) = (l.pool, .done (.refused .invalidReturn))
  apart : (l.outstanding.map Loan.conn).Nodup

/-- What the pool makes sure of, whoever returns connections and however often. -/
structure Tracked (l : Ledger) : Prop where
  /-- A connection that is not lent is not taken back, and nothing changes. -/
  refused : ∀ c broken, l.pool.isLent c = false →
    l.pool.start (.put c broken) = (l.pool, .done (.refused .invalidReturn))
  /-- A connection that is lent is taken back, and not lent any more. -/
  accepted : ∀ c broken, l.pool.isLent c = true → l.pool.takesBack c broken = true ∧
    (l.pool.start (.put c broken)).1.isLent c = false
  balanced : l.Balanced
  /-- As long as no loan has been returned twice, no two holders have the same connection. -/
  apart : (∀ loan ∈ l.loans, loan.returns ≤ 1) → (l.outstanding.map Loan.conn).Nodup

theorem Balanced.tracked (hl : l.Balanced) : l.Tracked where
  refused _ broken hlent := Pool.start_put_of_not_lent hlent broken
  accepted c broken hlent := by
    obtain ⟨haccepted, hreturned⟩ := Pool.takesBack_of_lent hlent broken
    exact ⟨haccepted, by simp [hreturned]⟩
  balanced := hl
  apart := hl.nodup_outstanding

theorem Balanced.exclusive (hl : l.Balanced) (hsingle : ∀ c, (l.loansOf c).length ≤ 1) :
    l.Exclusive := by
  have hreturns {loan : Loan} (hloan : loan ∈ l.loans) :
      loan.returns + (l.pool.isLent loan.conn).toNat ≤ 1 := by
    have hmem : loan ∈ l.loansOf loan.conn := List.mem_filter.mpr ⟨hloan, by simp⟩
    have hle : loan.returns ≤ ((l.loansOf loan.conn).map Loan.returns).sum :=
      List.le_sum_of_mem (List.mem_map_of_mem hmem)
    have hbalanced := hl loan.conn
    have hone := hsingle loan.conn
    omega
  have honce : ∀ loan ∈ l.loans, loan.returns ≤ 1 := fun loan hloan => by
    have hle := hreturns hloan
    omega
  refine ⟨honce, fun loan hloan hpos broken => ?_, hl.nodup_outstanding honce⟩
  refine Pool.start_put_of_not_lent ?_ broken
  cases hlent : l.pool.isLent loan.conn with
  | false => rfl
  | true =>
    have hle := hreturns hloan
    rw [hlent, Bool.toNat_true] at hle
    omega

section Create

variable {p : Pool} {config : Config} {addresses : List String} {now : Duration}

theorem kept_of_create (hcreate : Pool.create config addresses now = .ok p) :
    Kept p p.ledger := by
  refine ⟨⟨[], trivial, rfl⟩, fun loan hloan => (List.not_mem_nil hloan).elim, fun c => ?_⟩
  obtain ⟨_, _, rfl⟩ := Pool.eq_of_create hcreate
  rfl

/-- Where idle connections are kept, some run comes to a loan that was returned and whose connection
is lent again. -/
theorem exists_run_returned (hcreate : Pool.create config addresses now = .ok p)
    (hmax : 0 < config.maxIdle) :
    ∃ ds, p.ledger.Runs ds ∧ ∃ loan ∈ (p.ledger.after ds).loans,
      0 < loan.returns ∧ (p.ledger.after ds).pool.isLent loan.conn = true := by
  have hwf := Pool.WellFormed.of_create hcreate
  have hladen := Pool.laden_of_create hcreate
  have hn : 0 < addresses.length := hladen.stands.length ▸ hwf.shards
  obtain ⟨as, hruns, hputs, hfull⟩ := hladen.exists_run hwf (Nat.le_refl _)
  obtain ⟨cs, hmore, hputs', hserves⟩ := hfull.exists_serves (hwf.after as) hn hmax
  -- Among the holders is one of the connection that the first shard lends.
  let l := p.ledger.after (as.map .act)
  have hl : l.pool = p.after as := pool_after_map _ as
  have hfirst : p.ledger.Runs (as.map .act) := runs_map hruns hputs
  obtain ⟨t, hconn⟩ := hfull.lent 0 hn
  have hlent : l.pool.isLent 0 = true := by simp [hl, Pool.isLent, hconn]
  have hbalanced : l.Balanced := ((kept_of_create hcreate).after hcreate hfirst).balanced
  obtain ⟨k, loan, hk, hzero⟩ := hbalanced.exists_loan hlent
  -- It returns the connection, which is then lent to the next get.
  have hback : l.act (.giveBack k false) =
      ⟨(l.pool.start (.put 0 false)).1, l.loans.modify k Loan.giveBack⟩ := by
    simp only [act, hk, hzero, (Pool.takesBack_of_lent hlent false).1, if_true]
  have hafter : p.ledger.after (as.map .act ++ .giveBack k false :: cs.map .act) =
      (l.act (.giveBack k false)).after (cs.map .act) := after_append _ _ _
  refine ⟨as.map .act ++ .giveBack k false :: cs.map .act, ?_, loan.giveBack, ?_,
    Nat.succ_pos _, ?_⟩
  · refine runs_append.mpr ⟨hfirst, (List.getElem?_eq_some_iff.mp hk).1, runs_map ?_ hputs'⟩
    change (l.act (.giveBack k false)).pool.Runs cs
    rw [hback, hl]
    exact hmore
  · rw [hafter]
    refine loans_subset_after_map (l.act (.giveBack k false)) cs ?_
    rw [hback]
    exact List.mem_of_getElem? (i := k) (by simp [hk])
  · have hreturned : p.Runs (as ++ [.start (.put 0 false)]) :=
      Pool.runs_append.mpr ⟨hruns, trivial, trivial⟩
    have hconserved := Pool.invariant_conserved.after hreturned hwf
      (Pool.conserved_of_create hcreate)
    rw [Pool.after_append] at hconserved
    have hwf' := (hwf.after as).act (.start (.put 0 false))
    rw [hafter, pool_after_map, hback, hl]
    change Pool.isLent _ loan.conn = true
    rw [hzero]
    exact Pool.isLent_of_serves hwf' hconserved hmore hserves

/-- In every run the pool goes by whether a connection is lent, and not by who returns it. So each
loan is returned once at most, and a second return of it is refused, in all runs if and only if no
idle connection is kept. Else a holder that returns a connection for the second time takes it from
the next one that it was lent to, and it may be lent to a third while that one holds it. -/
theorem exclusive_iff (hcreate : Pool.create config addresses now = .ok p) :
    (∀ ds, p.ledger.Runs ds → (p.ledger.after ds).Tracked) ∧
      ((∀ ds, p.ledger.Runs ds → (p.ledger.after ds).Exclusive) ↔ config.maxIdle = 0) := by
  have hkept := kept_of_create hcreate
  refine ⟨fun ds hruns => (hkept.after hcreate hruns).balanced.tracked, ?_, ?_⟩
  · intro hexclusive
    by_contra hmax
    obtain ⟨ds, hruns, loan, hloan, hpos, hlent⟩ :=
      exists_run_returned hcreate (Nat.pos_of_ne_zero hmax)
    have hrefused := (hexclusive ds hruns).refused loan hloan hpos false
    have haccepted := (Pool.takesBack_of_lent hlent false).1
    rw [Pool.takesBack, hrefused] at haccepted
    simp at haccepted
  · intro hmax ds hruns
    have hsingle : ∀ c, (p.ledger.loansOf c).length ≤ 1 := fun c => Nat.zero_le _
    exact (hkept.after hcreate hruns).balanced.exclusive
      fun c => hkept.single_after hcreate hmax hsingle hruns c

/-- A pool of one shard that keeps idle connections: the first of two holders of a connection
returns it a second time. -/
theorem exclusive_iff_one :
    ∃ p, Pool.create {} ["a:1"] .zero = .ok p ∧
      (¬∀ ds, p.ledger.Runs ds → (p.ledger.after ds).Exclusive) ∧
      ∃ ds, p.ledger.Runs ds ∧ (p.ledger.after ds).loans = [⟨0, 2⟩, ⟨0, 0⟩] := by
  have hcreate : Pool.create {} ["a:1"] .zero = .ok _ := rfl
  let ds : List Deed := [.act (.start .get), .act (.resume 0 (.ok ())), .giveBack 0 false,
    .act (.start .get), .giveBack 0 false]
  refine ⟨_, hcreate, fun hexclusive => ?_, ds, by decide, by decide⟩
  exact absurd ((exclusive_iff hcreate).2.mp hexclusive) (by decide)

end Create

end Ledger

end QuorumPool

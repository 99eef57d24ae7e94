import QuorumPool.Proofs.Releases

namespace QuorumPool

namespace Client

variable {C : Client}

/-- What comes of requests with the given words, made one after the other on a connection. -/
def answers (C : Client) (n : C.Network) (handle : C.Handle) (limit : Duration) :
    List (List String) → List (Option (Except RedisError C.Reply))
  | [] => []
  | words :: rest =>
    (C.request n handle limit (C.command words)).2 ::
      C.answers (C.request n handle limit (C.command words)).1 handle limit rest

/-- The network after requests with the given words, and nothing else. -/
def afterRequests (C : Client) (n : C.Network) (handle : C.Handle) (limit : Duration) :
    List (List String) → C.Network
  | [] => n
  | words :: rest =>
    C.afterRequests (C.request n handle limit (C.command words)).1 handle limit rest

/-- What comes of a request is a reply within the limit that is no error. -/
def Accepts (C : Client) (answer : Option (Except RedisError C.Reply)) : Prop :=
  ∃ reply, answer = some (.ok reply) ∧ C.unit reply = .ok ()

/-- What a request fails with of which this comes, unless that is accepted. -/
def failure? (C : Client) (limit : Duration) :
    Option (Except RedisError C.Reply) → Option Failure
  | none => some (.timeout limit)
  | some answer =>
    match answer.bind C.unit with
    | .ok () => none
    | .error e => some (.redis e)

theorem failure?_eq_none_iff {limit : Duration} {answer : Option (Except RedisError C.Reply)} :
    C.failure? limit answer = none ↔ C.Accepts answer := by
  obtain _ | e | reply := answer
  · simp [failure?, Accepts]
  · simp [failure?, Accepts, Except.bind]
  · cases hunit : C.unit reply <;> simp [failure?, Accepts, Except.bind, hunit]

/-- On a connection the greetings in `sent` were said and nothing else, and this is what came of
it. -/
structure Greeted (C : Client) (n : C.Network) (handle : C.Handle) (limit : Duration)
    (greetings sent : List (List String)) (m : C.Network) (result : Except Failure Unit) :
    Prop where
  isPrefix : sent <+: greetings
  network : m = C.afterRequests n handle limit sent
  /-- Each greeting but the last was accepted before the next was said. -/
  paced : ∀ answer ∈ (C.answers n handle limit sent).dropLast, C.Accepts answer
  ok_iff : result = .ok () ↔ ∀ answer ∈ C.answers n handle limit greetings, C.Accepts answer
  whole : result = .ok () → sent = greetings
  failed : ∀ e, result = .error e →
    ∃ answer, (C.answers n handle limit sent).getLast? = some answer ∧
      C.failure? limit answer = some e

namespace Greeted

variable {n k m : C.Network} {handle : C.Handle} {limit : Duration} {words : List String}
  {greetings sent : List (List String)} {answer : Option (Except RedisError C.Reply)}
  {result : Except Failure Unit} {e : Failure}

theorem nil (n : C.Network) (handle : C.Handle) (limit : Duration) :
    C.Greeted n handle limit [] [] n (.ok ()) where
  isPrefix := List.nil_prefix
  network := rfl
  paced := by simp [answers]
  ok_iff := by simp [answers]
  whole _ := rfl
  failed := nofun

/-- The first greeting is not accepted, and no other is said. -/
theorem refused (hrequest : C.request n handle limit (C.command words) = (k, answer))
    (hfailure : C.failure? limit answer = some e) (greetings : List (List String)) :
    C.Greeted n handle limit (words :: greetings) [words] k (.error e) where
  isPrefix := ⟨greetings, rfl⟩
  network := by simp [afterRequests, hrequest]
  paced := by simp [answers]
  ok_iff := by
    have hrejects : ¬ C.Accepts answer := fun haccepts => by
      rw [failure?_eq_none_iff.mpr haccepts] at hfailure
      cases hfailure
    simp [answers, hrequest, hrejects]
  whole := nofun
  failed := by simp [answers, hrequest, hfailure]

/-- The first greeting is accepted, and the others are said. -/
theorem accepted (hrequest : C.request n handle limit (C.command words) = (k, answer))
    (hpass : C.Accepts answer) (hrest : C.Greeted k handle limit greetings sent m result) :
    C.Greeted n handle limit (words :: greetings) (words :: sent) m result where
  isPrefix := List.cons_prefix_cons.mpr ⟨rfl, hrest.isPrefix⟩
  network := by rw [afterRequests, hrequest, hrest.network]
  paced := by
    rw [answers, hrequest]
    dsimp only
    cases hsent : C.answers k handle limit sent with
    | nil => simp
    | cons next more =>
      rw [List.dropLast_cons_cons, ← hsent]
      exact List.forall_mem_cons.mpr ⟨hpass, hrest.paced⟩
  ok_iff := by
    rw [answers, hrequest, List.forall_mem_cons, hrest.ok_iff]
    exact (and_iff_right hpass).symm
  whole hok := by rw [hrest.whole hok]
  failed e he := by
    obtain ⟨last, hlast, hfailure⟩ := hrest.failed e he
    refine ⟨last, ?_, hfailure⟩
    rw [answers, hrequest, List.getLast?_cons, hlast, Option.getD_some]

end Greeted

end Client

variable {C : Client}

namespace Link

variable {k : Link C} {n m : C.Network} {handle : C.Handle} {words : List String}
  {answer : Option (Except RedisError C.Reply)}

private theorem query_of_accepts (hhandle : k.handle = some handle)
    (hrequest : C.request n handle k.limit (C.command words) = (m, answer))
    (hpass : C.Accepts answer) : k.query n (C.command words) C.unit = (m, k, .ok ()) := by
  obtain ⟨reply, rfl, hunit⟩ := hpass
  simp [query, hhandle, hrequest, Except.bind, hunit]

private theorem query_of_failure {e : Failure} (hhandle : k.handle = some handle)
    (hrequest : C.request n handle k.limit (C.command words) = (m, answer))
    (hfailure : C.failure? k.limit answer = some e) :
    ∃ k', k.query n (C.command words) C.unit = (m, k', .error e) := by
  cases answer with
  | none =>
    obtain rfl := Option.some.inj hfailure
    simp [query, hhandle, hrequest]
  | some answer =>
    dsimp only [Client.failure?] at hfailure
    split at hfailure <;> rename_i hread
    · cases hfailure
    · obtain rfl := Option.some.inj hfailure
      simp [query, hhandle, hrequest, hread]

end Link

namespace Dialer

variable {d : Dialer} {n m : C.Network} {address : String} {handle : C.Handle}

/-- What comes of saying greetings on a connection, which is as before but for the mark. -/
theorem greeted_greet {k : Link C} (hhandle : k.handle = some handle) (n : C.Network)
    (greetings : List (List String)) :
    ∃ sent broken, (greet k n greetings).2.1 = { k with broken } ∧
      C.Greeted n handle k.limit greetings sent (greet k n greetings).1
        (greet k n greetings).2.2 := by
  induction greetings generalizing n with
  | nil => exact ⟨[], k.broken, rfl, .nil n handle k.limit⟩
  | cons words rest ih =>
    rcases hrequest : C.request n handle k.limit (C.command words) with ⟨m, answer⟩
    cases hfailure : C.failure? k.limit answer with
    | some e =>
      obtain ⟨k', hquery⟩ := Link.query_of_failure hhandle hrequest hfailure
      obtain ⟨broken, hlink⟩ := k.link_query n (C.command words) C.unit
      rw [hquery] at hlink
      simp only [greet, hquery]
      exact ⟨[words], broken, hlink, .refused hrequest hfailure rest⟩
    | none =>
      have hpass := Client.failure?_eq_none_iff.mp hfailure
      obtain ⟨sent, broken, hlink, hgreeted⟩ := ih m
      simp only [greet, Link.query_of_accepts hhandle hrequest hpass]
      exact ⟨words :: sent, broken, hlink, .accepted hrequest hpass hgreeted⟩

/-- The client takes the URL of an address and has a connection to it in time. -/
def Connects (d : Dialer) (n : C.Network) (address : String) (handle : C.Handle)
    (k : C.Network) : Prop :=
  ∃ target, C.target (url address) = .ok target ∧
    C.connect n target d.connectTimeout = (k, some (.ok handle))

/-- What may come of making a connection to an address for a pool. -/
inductive Creates (d : Dialer) (n : C.Network) (address : String) :
    C.Network × Except PoolError (Link C) → Prop
  /-- The client does not take the URL, and does nothing. -/
  | misread {e} : C.target (url address) = .error e →
      Creates d n address (n, .error (.connect address (Failure.redis e).message))
  /-- There is no connection in time, and nothing is said. -/
  | late {target m} : C.target (url address) = .ok target →
      C.connect n target d.connectTimeout = (m, none) →
      Creates d n address (m, .error (.connect address (Failure.timeout d.connectTimeout).message))
  /-- The client fails to connect, and nothing is said. -/
  | unconnected {target m e} : C.target (url address) = .ok target →
      C.connect n target d.connectTimeout = (m, some (.error e)) →
      Creates d n address (m, .error (.connect address (Failure.redis e).message))
  /-- Some greeting is not accepted, and the connection is given up. -/
  | refused {k m handle sent e} : d.Connects n address handle k →
      C.Greeted k handle d.responseTimeout d.greetings sent m (.error e) →
      Creates d n address (C.drop m handle, .error (.connect address e.message))
  /-- All greetings are accepted. -/
  | made {k m handle sent} : d.Connects n address handle k →
      C.Greeted k handle d.responseTimeout d.greetings sent m (.ok ()) →
      Creates d n address (m, .ok { address, handle := some handle, limit := d.responseTimeout })

theorem creates (d : Dialer) (n : C.Network) (address : String) :
    d.Creates n address (d.create n address) := by
  cases htarget : C.target (url address) with
  | error e =>
    simp only [create, dial, htarget]
    exact .misread htarget
  | ok target =>
    rcases hconnect : C.connect n target d.connectTimeout with ⟨k, _ | e | handle⟩
    · simp only [create, dial, htarget, hconnect]
      exact .late htarget hconnect
    · simp only [create, dial, htarget, hconnect]
      exact .unconnected htarget hconnect
    obtain ⟨fresh, hfresh⟩ : ∃ fresh : Link C,
      fresh = { address, handle := some handle, limit := d.responseTimeout } := ⟨_, rfl⟩
    have hhandle : fresh.handle = some handle := by rw [hfresh]
    obtain ⟨sent, broken, hlink, hgreeted⟩ := greeted_greet hhandle k d.greetings
    rcases hgreet : greet fresh k d.greetings with ⟨m, k', e | _⟩
    all_goals
      rw [hgreet] at hlink hgreeted
      simp only [create, dial, htarget, hconnect, ← hfresh, hgreet]
      dsimp only at hlink hgreeted
    · rw [hlink, hfresh]
      rw [hfresh] at hgreeted
      exact .refused ⟨target, htarget, hconnect⟩ hgreeted
    · rw [greet_eq_ok hgreet, hfresh]
      rw [hfresh] at hgreeted
      exact .made ⟨target, htarget, hconnect⟩ hgreeted

end Dialer

namespace Traffic

variable {t : Traffic C} {ds : List (Dealing C)} {d : Dealing C} {c : ConnId} {k : Link C}

/-- The dealing is the dial by which the pool has come to its connection `c`. The client has
connected to the address, all greetings were accepted and nothing else was said, and `k` is that
connection. -/
def Introduces (t : Traffic C) (c : ConnId) (k : Link C) : Dealing C → Prop
  | .act a => ∃ i address handle n,
      t.pool.answeredCall? a = some (.dial i address) ∧ (c : Nat) = t.redis.links.length ∧
      t.redis.dialer.Connects t.network address handle n ∧
      (∀ answer ∈ C.answers n handle t.redis.dialer.responseTimeout t.redis.dialer.greetings,
        C.Accepts answer) ∧
      (t.act (.act a)).network =
        C.afterRequests n handle t.redis.dialer.responseTimeout t.redis.dialer.greetings ∧
      k.address = address ∧ k.handle = some handle ∧ k.limit = t.redis.dialer.responseTimeout
  | .release _ | .query .. | .others _ => False

/-- The mark of a connection has no part in how it was introduced. -/
theorem Introduces.mark (h : t.Introduces c k d) {broken : Bool} :
    t.Introduces c { k with broken } d := by
  cases d with
  | act a => exact h
  | _ => exact h.elim

/-- What the client does to the connections of a pool for an action of it. -/
inductive Served (t : Traffic C) (a : Action) (r : RedisPool.Reach C) : Prop
  | still (links : r.links = t.redis.links)
  | dialed {i address k} (asked : t.pool.answeredCall? a = some (.dial i address))
      (create : t.redis.dialer.create t.network address = (r.network, .ok k))
      (links : r.links = t.redis.links ++ [k])
  | touched (c : ConnId) {k} (links : r.links = t.redis.links.set c k)
      (link : (∃ broken, k = { t.link c with broken }) ∨
        t.pool.answeredCall? a = some (.close (.own c)))

theorem served (t : Traffic C) (a : Action) : t.Served a (t.answer a).1 := by
  unfold answer
  split
  · exact .still rfl
  rename_i call hcall
  split
  swap
  · exact .still rfl
  rename_i hown
  cases call with
  | probe address => cases hown
  | dial i address =>
    rcases hcreate : t.redis.dialer.create t.network address with ⟨m, e | k⟩
    · refine .still ?_
      simp [RedisPool.Reach.serve, RedisPool.reach, hcreate]
    · refine .dialed hcall (k := k) ?_ ?_ <;>
        simp [RedisPool.Reach.serve, RedisPool.reach, hcreate]
  | validate target =>
    cases target with
    | own c => exact .touched c rfl (.inl ((t.link c).link_validate t.network))
    | probe => cases hown
    | stray => cases hown
  | close target =>
    cases target with
    | own c => exact .touched c rfl (.inr hcall)
    | probe => cases hown
    | stray => cases hown

end Traffic

namespace Traffic

end Traffic

end QuorumPool

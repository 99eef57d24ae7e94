import QuorumPool.Proofs.Tasks

namespace QuorumPool.Pool

/-- What the action answers, if it is the last step of a request. -/
def answer? (p : Pool) : Action → Option Answer
  | .start request =>
    match (p.start request).2 with
    | .done a => some a
    | .waits _ => none
  | .resume id reply => (p.resume id reply).2
  | _ => none

/-- Whether the request, made with the first of the actions, is answered by the last one. -/
def Serves (p : Pool) (request : Request) (as : List Action) (a : Answer) : Prop :=
  as = [.start request] ∧ p.answer? (.start request) = some a ∨
    ∃ id bs reply, (p.start request).2 = .waits id ∧
      as = .start request :: (bs ++ [.resume id reply]) ∧
      ((p.act (.start request)).after bs).answer? (.resume id reply) = some a

variable {p q : Pool} {request : Request} {a : Answer}

/-- A request that is served is answered by the last of the actions, in its own name if it had to
wait. -/
theorem Serves.exists_last {as : List Action} (hserves : p.Serves request as a) :
    ∃ bs b, as = bs ++ [b] ∧ (p.after bs).answer? b = some a ∧
      ∀ id reply, b = .resume id reply → (p.start request).2 = .waits id := by
  obtain ⟨rfl, hanswer⟩ | ⟨id, bs, reply, hstart, rfl, hanswer⟩ := hserves
  · exact ⟨[], _, rfl, hanswer, fun id reply hb => by cases hb⟩
  · refine ⟨.start request :: bs, _, rfl, hanswer, fun id' reply' hb => ?_⟩
    obtain ⟨rfl, -⟩ := Action.resume.inj hb
    exact hstart

/-- A request is answered at once or becomes a task. -/
theorem answer?_start_eq_some_iff :
    p.answer? (.start request) = some a ↔ (p.begin request).2 = .done a := by
  simp only [answer?, start]
  rcases p.begin request with ⟨q, t | b⟩ <;> simp

theorem answer?_resume_eq_some_iff {id : TaskId} {reply : Reply} :
    p.answer? (.resume id reply) = some a ↔
      ∃ t, p.task? id = some t ∧ (p.advance t reply).2 = .done a := by
  simp only [answer?, resume]
  cases ht : p.task? id with
  | none => simp
  | some t =>
    rcases hadvance : p.advance t reply with ⟨q, t' | b⟩ <;> simp [hadvance]

/-- What a task answers is the outcome of its last step. -/
theorem advance_of_answer {id : TaskId} {t : Task} (ht : p.task? id = some t) {reply : Reply}
    (hanswer : p.answer? (.resume id reply) = some a) : (p.advance t reply).2 = .done a := by
  obtain ⟨u, hu, hdone⟩ := answer?_resume_eq_some_iff.mp hanswer
  rwa [Option.some.inj (ht.symm.trans hu)]

theorem begin_eq_done_lent {c : ConnId} (hbegin : (p.begin request).2 = .done (.lent c)) :
    request = .get ∧ p.get.2 = .done (.ok c) := by
  cases request with
  | strayPut => cases hbegin
  | get =>
    obtain ⟨w, hget, hw⟩ := Progress.map_eq_done.mp hbegin
    cases w with
    | ok d =>
      obtain rfl := Answer.lent.inj hw
      exact ⟨rfl, hget⟩
    | error e => cases hw
  | put d broken =>
    obtain ⟨w, -, hw⟩ := Progress.map_eq_done.mp hbegin
    cases w <;> cases hw
  | _ =>
    obtain ⟨w, -, hw⟩ := Progress.map_eq_done.mp hbegin
    cases hw

theorem advance_eq_done_lent {t : Task} {reply : Reply} {c : ConnId}
    (hadvance : (p.advance t reply).2 = .done (.lent c)) :
    ∃ g, t = .get g ∧ (p.resumeGet g reply).2 = .done (.ok c) := by
  cases t with
  | get g =>
    obtain ⟨w, hget, hw⟩ := Progress.map_eq_done.mp hadvance
    cases w with
    | ok d =>
      obtain rfl := Answer.lent.inj hw
      exact ⟨g, rfl, hget⟩
    | error e => cases hw
  | put d => cases reply <;> cases hadvance
  | strayPut => cases reply <;> cases hadvance
  | _ =>
    obtain ⟨w, -, hw⟩ := Progress.map_eq_done.mp hadvance
    cases hw

theorem begin_eq_waits_get {g : Getting} (hbegin : (p.begin request).2 = .waits (.get g)) :
    request = .get ∧ p.get.2 = .waits g := by
  cases request with
  | strayPut => cases hbegin
  | get =>
    obtain ⟨g', hget, hg⟩ := Progress.map_eq_waits.mp hbegin
    obtain rfl := Task.get.inj hg
    exact ⟨rfl, hget⟩
  | _ =>
    obtain ⟨w, -, hw⟩ := Progress.map_eq_waits.mp hbegin
    cases hw

theorem advance_eq_waits_get {t : Task} {reply : Reply} {g : Getting}
    (hadvance : (p.advance t reply).2 = .waits (.get g)) :
    ∃ g', t = .get g' ∧ (p.resumeGet g' reply).2 = .waits g := by
  cases t with
  | get g' =>
    obtain ⟨w, hget, hw⟩ := Progress.map_eq_waits.mp hadvance
    obtain rfl := Task.get.inj hw
    exact ⟨g', rfl, hget⟩
  | put c => cases hadvance
  | strayPut => cases hadvance
  | _ =>
    obtain ⟨w, -, hw⟩ := Progress.map_eq_waits.mp hadvance
    cases hw

theorem begin_eq_done_shutDown (hbegin : (p.begin request).2 = .done .shutDown) :
    request = .shutdown := by
  cases request with
  | strayPut => cases hbegin
  | shutdown => rfl
  | get | put =>
    obtain ⟨w, -, hw⟩ := Progress.map_eq_done.mp hbegin
    cases w <;> cases hw
  | _ =>
    obtain ⟨w, -, hw⟩ := Progress.map_eq_done.mp hbegin
    cases hw

theorem advance_eq_done_shutDown {t : Task} {reply : Reply}
    (hadvance : (p.advance t reply).2 = .done .shutDown) : ∃ s, t = .shutdown s := by
  cases t with
  | shutdown s => exact ⟨s, rfl⟩
  | get g =>
    obtain ⟨w, -, hw⟩ := Progress.map_eq_done.mp hadvance
    cases w <;> cases hw
  | put d => cases reply <;> cases hadvance
  | strayPut => cases reply <;> cases hadvance
  | _ =>
    obtain ⟨w, -, hw⟩ := Progress.map_eq_done.mp hadvance
    cases hw

end QuorumPool.Pool

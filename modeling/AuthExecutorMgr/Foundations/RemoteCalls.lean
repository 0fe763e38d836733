import Mathlib.Tactic

/-!
# Remote calls

A request is handled behind a link, once or not at all, and the caller takes its
result from the reply. The link may lose the request or the reply. A run of remote
calls then has the effect of some of the calls, made directly and in their order,
and each of its callers has the result of the call that was made or that of a failure.
-/

namespace RemoteCalls

/-- What handling a request comes to: its result, the reply and the next state; none if
it never ends. -/
abbrev Handled (ρ P σ : Type) := Option (ρ × P × σ)

variable {ρ P σ α γ : Type}

/-- What a link may return for a request. A caller that waits is told `ok` only if the
request was handled with it, and then has its reply. -/
inductive Delivery (ok : ρ) (waits : Bool) (handled : Handled ρ P σ) (s : σ) :
    Handled ρ P σ → Prop
  | lost {result : ρ} (reply : P) (h : waits = true → result ≠ ok) :
      Delivery ok waits handled s (some (result, reply, s))
  | stuck (h : handled = none) : Delivery ok waits handled s none
  | handled {ret result : ρ} {reply reply' : P} {s' : σ} (h : handled = some (ret, reply, s'))
      (hanswer : waits = true → result = ok → ret = ok ∧ reply' = reply) :
      Delivery ok waits handled s (some (result, reply', s'))

/-- The caller's part, with what it returns when it gives up writing its request and
when the link does not return `ok`. -/
def call [DecidableEq ρ] (ok : ρ) (unwritten unsent : α) (request : Option (Option P))
    (link : P → σ → Handled ρ P σ) (answer : P → Option α) (s : σ) : Option (α × σ) :=
  match request with
  | none => none
  | some none => some (unwritten, s)
  | some (some data) =>
    match link data s with
    | none => none
    | some (result, reply, s') =>
      if result = ok then (answer reply).map fun a => (a, s') else some (unsent, s')

/-- What a remote call may come to, next to the same call made directly. -/
inductive Outcome (unwritten unsent : α) (s : σ) (direct : Option (α × σ)) :
    Option (α × σ) → Prop
  | unwritten : Outcome unwritten unsent s direct (some (unwritten, s))
  | unsent : Outcome unwritten unsent s direct (some (unsent, s))
  | answered : Outcome unwritten unsent s direct direct
  | unanswered {a : α} {s' : σ} (h : direct = some (a, s')) :
      Outcome unwritten unsent s direct (some (unsent, s'))

/-- To handle the request is to make the call, and a reply under `ok` answers with its
result. That the request is handled with `ok` may rest on a condition. -/
def Serves (ok : ρ) (sure : Prop) (answer : P → Option α) (direct : Option (α × σ))
    (handled : Handled ρ P σ) : Prop :=
  match direct with
  | none => handled = none
  | some (a, s') => ∃ ret reply, handled = some (ret, reply, s') ∧
      (ret = ok → answer reply = some a) ∧ (sure → ret = ok)

/-- A call without a result is made, or lost where calls can be lost. -/
inductive Posted (lossy : Prop) (direct : Option (Unit × σ)) (s : σ) : σ → Prop
  | made {s' : σ} (h : direct = some ((), s')) : Posted lossy direct s s'
  | lost (h : lossy) : Posted lossy direct s s

/-- The calls in turn with their results, up to one that never ends. -/
def run (f : γ → σ → Option (α × σ)) : List γ → σ → Option (List α × σ)
  | [], s => some ([], s)
  | c :: calls, s =>
    match f c s with
    | none => none
    | some (a, s') => (run f calls s').map fun made => (a :: made.1, made.2)

/-- Which of the remote calls are made, and what their callers get next to what the calls
made return: a call is made or not, and one that is made is answered or not. -/
inductive Carried (unwritten unsent : γ → α) :
    List γ → List α → List γ → List α → Prop
  | nil : Carried unwritten unsent [] [] [] []
  | unwritten (c : γ) {calls made : List γ} {results returned : List α}
      (h : Carried unwritten unsent calls results made returned) :
      Carried unwritten unsent (c :: calls) (unwritten c :: results) made returned
  | unsent (c : γ) {calls made : List γ} {results returned : List α}
      (h : Carried unwritten unsent calls results made returned) :
      Carried unwritten unsent (c :: calls) (unsent c :: results) made returned
  | answered (c : γ) (a : α) {calls made : List γ} {results returned : List α}
      (h : Carried unwritten unsent calls results made returned) :
      Carried unwritten unsent (c :: calls) (a :: results) (c :: made) (a :: returned)
  | unanswered (c : γ) (a : α) {calls made : List γ} {results returned : List α}
      (h : Carried unwritten unsent calls results made returned) :
      Carried unwritten unsent (c :: calls) (unsent c :: results) (c :: made) (a :: returned)

/-- The calls in turn, with a code that each of them may come to; the last one that is not
`ok` is kept. -/
def runAll [DecidableEq ρ] (ok : ρ) (f : γ → σ → Option (Option ρ × σ)) :
    List γ → ρ → σ → Option (ρ × σ)
  | [], code, s => some (code, s)
  | c :: calls, code, s =>
    match f c s with
    | none => none
    | some (none, s') => runAll ok f calls code s'
    | some (some ret, s') => runAll ok f calls (if ret ≠ ok then ret else code) s'

section Call

variable [DecidableEq ρ] {ok : ρ} {unwritten unsent : α} {request : Option (Option P)}
  {link : P → σ → Handled ρ P σ} {answer : P → Option α} {s : σ} {sure : Prop}
  {handled : P → Handled ρ P σ} {direct : Option (α × σ)}

/-- A call is made at most once. One that does not wait has no result but that of a call
which is not sent. -/
theorem call_outcome {waits : Bool}
    (hrequest : request ≠ none)
    (hlink : ∀ data, Delivery ok waits (handled data) s (link data s))
    (hserves : ∀ data, request = some (some data) → Serves ok sure answer direct (handled data))
    (hposted : waits = false → ∀ reply, answer reply = some unsent) :
    Outcome unwritten unsent s direct (call ok unwritten unsent request link answer s) := by
  match request, hrequest with
  | some none, _ => exact .unwritten
  | some (some data), _ =>
    have hserved := hserves data rfl
    have hdelivery := hlink data
    rw [call]
    generalize link data s = returned at hdelivery
    cases hdelivery with
    | @lost result reply h =>
      by_cases hok : result = ok
      · have hwaits : waits = false := by
          cases waits with
          | false => rfl
          | true => exact absurd hok (h rfl)
        simp only [if_pos hok, hposted hwaits, Option.map_some]
        exact .unsent
      · simp only [if_neg hok]
        exact .unsent
    | stuck h =>
      cases direct with
      | none => exact .answered
      | some made =>
        obtain ⟨_, _, hhandled, _⟩ := hserved
        rw [h] at hhandled
        cases hhandled
    | @handled ret result reply reply' s' h hanswer =>
      cases direct with
      | none =>
        have hnone : handled data = none := hserved
        rw [h] at hnone
        cases hnone
      | some made =>
        obtain ⟨_, _, hhandled, hreply, _⟩ := hserved
        rw [h] at hhandled
        cases hhandled
        by_cases hok : result = ok
        · cases waits with
          | false =>
            simp only [if_pos hok, hposted rfl, Option.map_some]
            exact .unanswered rfl
          | true =>
            obtain ⟨hret, rfl⟩ := hanswer rfl hok
            simp only [if_pos hok, hreply hret, Option.map_some]
            exact .answered
        · simp only [if_neg hok]
          exact .unanswered rfl

theorem call_exact {data : P} (hrequest : request = some (some data))
    (hserves : Serves ok sure answer direct (link data s)) (hsure : sure) :
    call ok unwritten unsent request link answer s = direct := by
  subst hrequest
  rw [call]
  cases direct with
  | none =>
    have hnone : link data s = none := hserves
    rw [hnone]
  | some made =>
    obtain ⟨ret, reply, hhandled, hreply, hok⟩ := hserves
    rw [hhandled]
    simp only [if_pos (hok hsure), hreply (hok hsure), Option.map_some]

end Call

theorem Outcome.map {β : Type} {unwritten unsent : α} {s : σ}
    {direct remote : Option (α × σ)} (h : Outcome unwritten unsent s direct remote) (f : α → β) :
    Outcome (f unwritten) (f unsent) s (direct.map fun made => (f made.1, made.2))
      (remote.map fun made => (f made.1, made.2)) := by
  cases h with
  | unwritten => exact .unwritten
  | unsent => exact .unsent
  | answered => exact .answered
  | unanswered h => exact .unanswered (by rw [h, Option.map_some])

theorem Outcome.trans {failed : α} {s : σ} {direct middle remote : Option (α × σ)}
    (h : Outcome failed failed s direct middle) (h' : Outcome failed failed s middle remote) :
    Outcome failed failed s direct remote := by
  cases h' with
  | unwritten => exact .unwritten
  | unsent => exact .unsent
  | answered => exact h
  | unanswered hmiddle =>
    subst hmiddle
    generalize hwhole : some _ = whole at h
    cases h with
    | unwritten =>
      cases hwhole
      exact .unwritten
    | unsent =>
      cases hwhole
      exact .unsent
    | answered => exact .unanswered hwhole.symm
    | unanswered hdirect =>
      cases hwhole
      exact .unanswered hdirect

theorem Outcome.posted {s s' : σ} {direct : Option (Unit × σ)}
    (h : Outcome () () s direct (some ((), s'))) : Posted True direct s s' := by
  generalize hwhole : some ((), s') = whole at h
  cases h with
  | unwritten =>
    cases hwhole
    exact .lost trivial
  | unsent =>
    cases hwhole
    exact .lost trivial
  | answered =>
    subst hwhole
    exact .made rfl
  | unanswered hdirect =>
    cases hwhole
    exact .made hdirect

section Run

variable {direct remote : γ → σ → Option (α × σ)} {unwritten unsent : γ → α}

theorem run_cons {f : γ → σ → Option (α × σ)} {c : γ} {calls : List γ} {s s' : σ}
    {results : List α} (h : run f (c :: calls) s = some (results, s')) :
    ∃ a t rest, f c s = some (a, t) ∧ run f calls t = some (rest, s') ∧ results = a :: rest := by
  rw [run] at h
  cases hc : f c s with
  | none =>
    rw [hc] at h
    cases h
  | some made =>
    rw [hc] at h
    obtain ⟨⟨rest, t⟩, hrest, he⟩ := Option.map_eq_some_iff.mp h
    cases he
    exact ⟨made.1, made.2, rest, rfl, hrest, rfl⟩

theorem Carried.sublist {calls made : List γ} {results returned : List α}
    (h : Carried unwritten unsent calls results made returned) : made.Sublist calls := by
  induction h with
  | nil => exact .slnil
  | unwritten c _ ih => exact ih.cons c
  | unsent c _ ih => exact ih.cons c
  | answered c _ _ ih => exact ih.cons_cons c
  | unanswered c _ _ ih => exact ih.cons_cons c

theorem Carried.all {calls made : List γ} {results returned : List α}
    (h : Carried unwritten unsent calls results made returned)
    (hwritten : ∀ c, unwritten c ∉ results) (hsent : ∀ c, unsent c ∉ results) :
    made = calls ∧ returned = results := by
  induction h with
  | nil => exact ⟨rfl, rfl⟩
  | unwritten c => exact absurd List.mem_cons_self (hwritten c)
  | unsent c => exact absurd List.mem_cons_self (hsent c)
  | answered c a _ ih =>
    obtain ⟨rfl, rfl⟩ := ih (fun c' hc' => hwritten c' (List.mem_cons_of_mem _ hc'))
      fun c' hc' => hsent c' (List.mem_cons_of_mem _ hc')
    exact ⟨rfl, rfl⟩
  | unanswered c => exact absurd List.mem_cons_self (hsent c)

/-- A run of remote calls has the effect of some of them made directly, in their order
and none of them twice. Each result is that of the call that was made, or a failure. -/
theorem run_carried {calls : List γ}
    (h : ∀ c ∈ calls, ∀ s, Outcome (unwritten c) (unsent c) s (direct c s) (remote c s))
    {s s' : σ} {results : List α} (hrun : run remote calls s = some (results, s')) :
    ∃ made returned, Carried unwritten unsent calls results made returned ∧
      run direct made s = some (returned, s') := by
  induction calls generalizing s results with
  | nil =>
    cases hrun
    exact ⟨[], [], .nil, rfl⟩
  | cons c calls ih =>
    obtain ⟨a, t, rest, hremote, hrest, rfl⟩ := run_cons hrun
    obtain ⟨made, returned, hcarried, hmade⟩ :=
      ih (fun c' hc' => h c' (List.mem_cons_of_mem c hc')) hrest
    have hmake : ∀ b, direct c s = some (b, t) →
        run direct (c :: made) s = some (b :: returned, s') := by
      intro b hdirect
      rw [run, hdirect]
      exact congrArg (Option.map fun made => (b :: made.1, made.2)) hmade
    have houtcome := h c List.mem_cons_self s
    generalize hreturned : remote c s = remoteMade at houtcome
    rw [hremote] at hreturned
    cases houtcome with
    | unwritten =>
      cases hreturned
      exact ⟨made, returned, .unwritten c hcarried, hmade⟩
    | unsent =>
      cases hreturned
      exact ⟨made, returned, .unsent c hcarried, hmade⟩
    | answered => exact ⟨_, _, .answered c a hcarried, hmake a hreturned.symm⟩
    | unanswered hdirect =>
      cases hreturned
      exact ⟨_, _, .unanswered c _ hcarried, hmake _ hdirect⟩

theorem run_congr {calls : List γ} (h : ∀ c ∈ calls, ∀ s, remote c s = direct c s) (s : σ) :
    run remote calls s = run direct calls s := by
  induction calls generalizing s with
  | nil => rfl
  | cons c calls ih =>
    have hcalls := fun s' => ih (fun c' hc' => h c' (List.mem_cons_of_mem c hc')) s'
    rw [run, run, h c List.mem_cons_self s]
    cases direct c s with
    | none => rfl
    | some made => exact congrArg (Option.map _) (hcalls made.2)

end Run

section RunAll

variable [DecidableEq ρ] {ok : ρ} {f : γ → σ → Option (Option ρ × σ)}

/-- The codes of the calls are kept in a run. It comes to `ok` only if no call came to
another code. -/
theorem runAll_run {calls : List γ} {code code' : ρ} {s s' : σ}
    (h : runAll ok f calls code s = some (code', s')) :
    ∃ results, run f calls s = some (results, s') ∧
      (code' = ok → code = ok ∧ ∀ ret, some ret ∈ results → ret = ok) := by
  induction calls generalizing code s with
  | nil =>
    cases h
    exact ⟨[], rfl, fun hok => ⟨hok, fun _ hret => absurd hret List.not_mem_nil⟩⟩
  | cons c calls ih =>
    rw [runAll] at h
    cases hc : f c s with
    | none =>
      rw [hc] at h
      cases h
    | some made =>
      obtain ⟨ret, t⟩ := made
      rw [hc] at h
      cases ret with
      | none =>
        obtain ⟨results, hrun, hcodes⟩ := ih h
        refine ⟨none :: results, by simp only [run, hc, hrun, Option.map_some], fun hok => ?_⟩
        refine ⟨(hcodes hok).1, fun ret hret => (hcodes hok).2 ret ?_⟩
        exact (List.mem_cons.mp hret).resolve_left (Option.some_ne_none ret)
      | some ret =>
        obtain ⟨results, hrun, hcodes⟩ := ih h
        refine ⟨some ret :: results, by simp only [run, hc, hrun, Option.map_some], fun hok => ?_⟩
        obtain ⟨hcode, hrest⟩ := hcodes hok
        split_ifs at hcode with hret
        · exact absurd hcode hret
        · refine ⟨hcode, fun ret' hret' => ?_⟩
          rcases List.mem_cons.mp hret' with he | hmem
          · exact Option.some.inj he ▸ not_not.mp hret
          · exact hrest ret' hmem

end RunAll

end RemoteCalls

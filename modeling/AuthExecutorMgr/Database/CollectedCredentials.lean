import AuthExecutorMgr.Database.DatabaseRuns

/-!
# Collecting the credentials of all users

`QueryCredentialFromExecutor` counts the users that have a credential of a type. The
index of its assignments is applied to the caller's pointer and not to the array, so
that only the first assignment reaches the array.
-/

namespace AuthExecutorMgr

open KeyedList

/-- The first credential of the type of each user that has one, in the order of the list. -/
def firstCredentials (authType : UInt32) (users : List UserInfo) : List CredentialInfoHal :=
  users.filterMap fun u => queryCredentialByAuthType authType u.credentialInfoList

def assignments : ℕ → List CredentialInfoHal → List (ℕ × CredentialInfoHal)
  | _, [] => []
  | num, c :: credentials => (num, c) :: assignments (num + 1) credentials

/-- The array is reached through `credentialInfos[0]` only, at its first place. -/
def landsInside (x : ℕ × CredentialInfoHal) : Bool := decide (x.1 = 0)

/-- A place of the array after some assignments; the growth of the array keeps it. -/
def arrayAt (assigned : List (ℕ × CredentialInfoHal)) (k : ℕ) : Option CredentialInfoHal :=
  if k = 0 then (assigned.filter landsInside).getLast?.map Prod.snd else none

/-- The loop comes to its end: it grows the array by doubling, far from the limit. -/
theorem collectCredentials_eq (authType : UInt32) (users : List UserInfo) (num preApplyNum : ℕ)
    (assigned : List (ℕ × CredentialInfoHal)) (hpre : 0 < preApplyNum) (hnum : num ≤ preApplyNum)
    (hmax : num + users.length ≤ maxUser) :
    collectCredentials (fun _ => true) authType users num preApplyNum assigned =
      (.ok (), num + (firstCredentials authType users).length,
        assigned ++ assignments num (firstCredentials authType users)) := by
  induction users generalizing num preApplyNum assigned with
  | nil => simp [collectCredentials, firstCredentials, assignments]
  | cons user users ih =>
    rw [List.length_cons] at hmax
    have hlimit : maxUser = 1000 := rfl
    rw [collectCredentials, firstCredentials, List.filterMap_cons]
    cases hquery : queryCredentialByAuthType authType user.credentialInfoList with
    | none => exact ih num preApplyNum assigned hpre hnum (by omega)
    | some c =>
      dsimp only
      have hrest : num + 1 + (firstCredentials authType users).length =
          num + (c :: firstCredentials authType users).length := by
        rw [List.length_cons]
        omega
      have hlist : assigned ++ [(num, c)] ++ assignments (num + 1)
          (firstCredentials authType users) =
            assigned ++ assignments num (c :: firstCredentials authType users) := by
        rw [List.append_assoc]
        rfl
      split_ifs with hfits hlarge hmalloc
      · have hnext := ih (num + 1) preApplyNum (assigned ++ [(num, c)]) hpre hfits (by omega)
        rw [hnext, hrest, hlist]
        rfl
      · omega
      · have hsize : malloc true (40 * (preApplyNum * 2)) = true := by
          simp only [malloc, Bool.and_true, Bool.and_eq_true, decide_eq_true_eq]
          omega
        rw [hsize] at hmalloc
        cases hmalloc
      · have hnext := ih (num + 1) (preApplyNum * 2) (assigned ++ [(num, c)]) (by omega) (by omega)
          (by omega)
        rw [hnext, hrest, hlist]
        rfl

theorem queryCredentialFromExecutor_eq (authType : UInt32) {db : Database} {users : List UserInfo}
    (hl : db.users = some users) (hmax : users.length ≤ maxUser) :
    queryCredentialFromExecutor (fun _ => true) authType 0 db =
      (.ok (), (firstCredentials authType users).length,
        assignments 0 (firstCredentials authType users)) := by
  have hmalloc : malloc true (5 * 40) = true := by decide
  unfold queryCredentialFromExecutor
  rw [hl]
  simp only [hmalloc, Bool.not_true, Bool.false_eq_true, if_false]
  rw [collectCredentials_eq authType users 0 5 [] (by omega) (by omega) (by omega)]
  simp

/-- The call reports success and the number of credentials; its writes stay inside the
array, which then holds the credentials. -/
structure CollectsAll (authType : UInt32) (users : List UserInfo)
    (r : Status × ℕ × List (ℕ × CredentialInfoHal)) : Prop where
  success : r.1 = .ok ()
  count : r.2.1 = (firstCredentials authType users).length
  inside : ∀ x ∈ r.2.2, landsInside x = true
  array : ∀ k, k < r.2.1 → arrayAt r.2.2 k = (firstCredentials authType users)[k]?

theorem collectsAll_assignments_iff {authType : UInt32} {users : List UserInfo} :
    CollectsAll authType users (.ok (), (firstCredentials authType users).length,
        assignments 0 (firstCredentials authType users)) ↔
      (firstCredentials authType users).length ≤ 1 := by
  constructor
  · intro h
    -- the assignment for the second credential goes past the caller's pointer
    have hinside := h.inside
    cases hfirst : firstCredentials authType users with
    | nil => exact Nat.zero_le 1
    | cons c credentials =>
      cases credentials with
      | nil => exact le_rfl
      | cons d credentials =>
        rw [hfirst] at hinside
        have hsecond := hinside (1, d) (List.mem_cons_of_mem _ List.mem_cons_self)
        exact absurd hsecond (by simp [landsInside])
  · intro hone
    cases hfirst : firstCredentials authType users with
    | nil =>
      refine ⟨rfl, by rw [hfirst], fun x hx => absurd hx List.not_mem_nil, fun k hk => ?_⟩
      exact absurd hk (Nat.not_lt_zero k)
    | cons c credentials =>
      rw [hfirst, List.length_cons] at hone
      obtain rfl : credentials = [] := List.eq_nil_of_length_eq_zero (by omega)
      refine ⟨rfl, by rw [hfirst], fun x hx => ?_, fun k hk => ?_⟩
      · rw [List.mem_singleton.mp hx]
        rfl
      · obtain rfl : k = 0 := Nat.lt_one_iff.mp hk
        rw [hfirst]
        rfl

/-- Everyone is collected exactly when there is at most one to collect. -/
theorem collectsAll_iff (authType : UInt32) {db : Database} {users : List UserInfo}
    (hl : db.users = some users) (hmax : users.length ≤ maxUser) :
    CollectsAll authType users (queryCredentialFromExecutor (fun _ => true) authType 0 db) ↔
      (users.countP fun u =>
        (queryCredentialByAuthType authType u.credentialInfoList).isSome) ≤ 1 := by
  rw [queryCredentialFromExecutor_eq authType hl hmax, collectsAll_assignments_iff,
    firstCredentials, List.length_filterMap_eq_countP]

theorem collectsAll_iff_onePin :
    CollectsAll pinAuth [⟨5, 1, [⟨1, pinAuth, 0, 7, 0⟩], [⟨pinAuth, 1⟩]⟩]
      (queryCredentialFromExecutor (fun _ => true) pinAuth 0 onePin) := by
  have hl : onePin.users = some [⟨5, 1, [⟨1, pinAuth, 0, 7, 0⟩], [⟨pinAuth, 1⟩]⟩] := by
    decide +kernel
  exact (collectsAll_iff pinAuth hl (by decide)).mpr (by decide)

def twoPins : Database :=
  onePin.run [.addCredentialInfo .favourable .favourable 6 ⟨0, pinAuth, 0, 8, 0⟩]

/-- Of two PINs the second one is written outside the array. -/
theorem collectsAll_twoPins :
    ¬∀ authType db users, Database.ReachableFrom none db → db.users = some users →
      users.length ≤ maxUser →
      CollectsAll authType users
        (queryCredentialFromExecutor (fun _ => true) authType 0 db) := by
  intro h
  have hl : twoPins.users = some [⟨6, 2, [⟨1, pinAuth, 0, 8, 0⟩], [⟨pinAuth, 1⟩]⟩,
      ⟨5, 1, [⟨1, pinAuth, 0, 7, 0⟩], [⟨pinAuth, 1⟩]⟩] := by
    decide +kernel
  have hreached : twoPins.ReachableFrom none := (Database.empty_reachable.run _).run _
  have hinside := (h pinAuth twoPins _ hreached hl (by decide)).inside
  have hresult : (queryCredentialFromExecutor (fun _ => true) pinAuth 0 twoPins).2.2 =
      [(0, ⟨1, pinAuth, 0, 8, 0⟩), (1, ⟨1, pinAuth, 0, 7, 0⟩)] := by
    decide +kernel
  rw [hresult] at hinside
  exact absurd (hinside (1, ⟨1, pinAuth, 0, 7, 0⟩) (by simp)) (by decide)

end AuthExecutorMgr

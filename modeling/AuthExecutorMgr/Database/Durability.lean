import AuthExecutorMgr.Database.TableOutcomes

/-!
# Success and the file

An addition or the deletion of a user that reports success has handed the list in
memory to the file, where it is if `fclose` flushes it: the result of `fclose` is
ignored. A credential of a type of which another credential is left is deleted in
memory only.
-/

namespace AuthExecutorMgr

open KeyedList

/-- If the call reports success, the file holds the list in memory. -/
def Durable {β : Type} (r : Status × β × Database) : Prop :=
  r.1 = .ok () → r.2.2.file = r.2.2.users.map fileBytes

/-- What is written is flushed. If the deletion of the credential leaves another one of
its type nothing is written, and the file already holds the list without it. -/
def DeletionOnFile (fileEnv : FileEnv) (userId : Int32) (credentialId : UInt64) (db : Database) :
    Prop :=
  ∀ users user found, db.users = some users → lookup UserInfo.userId userId users = some user →
    queryCredentialById credentialId user.credentialInfoList = some found →
    if (queryCredentialByAuthType found.authType
        (user.withoutCredential credentialId).credentialInfoList).isSome = true then
      db.file = some (fileBytes (put UserInfo.userId (user.withoutCredential credentialId) users))
    else fileEnv.write.flushes = true

variable {db : Database}

/-- Where the call reports success, it is durable exactly under the condition. -/
def DurableIff {β : Type} (cond : Prop) (r : Status × β × Database) : Prop :=
  r.1 = .ok () → (r.2.2.file = r.2.2.users.map fileBytes ↔ cond)

/-- The same for the table that the store refines. -/
def UserTable.DurableIff {β : Type} (cond : Prop) (r : Status × β × UserTable) : Prop :=
  r.1 = .ok () → (r.2.2.file = r.2.2.users.map fileBytes ↔ cond)

theorem Refines.durableIff {β : Type} {cond : Prop} {r : Status × β × Database}
    {t : Status × β × UserTable} (h : Refines r t) :
    DurableIff cond r ↔ UserTable.DurableIff cond t := by
  obtain ⟨_, rfl⟩ := h
  rfl

theorem UserTable.addToUser_durableIff (t : UserTable) (env : AddEnv) (fileEnv : FileEnv)
    (user : UserInfo) (c : CredentialInfoHal) :
    UserTable.DurableIff (fileEnv.write.flushes = true) (t.addToUser env fileEnv user c) := by
  unfold UserTable.addToUser
  split
  · intro hok
    cases hok
  · exact fun hok => UserTable.save_durable_iff hok

theorem addCredentialInfo_durableIff (h : db.Coherent) (env : AddEnv) (fileEnv : FileEnv)
    (userId : Int32) (c : CredentialInfoHal) :
    DurableIff (fileEnv.write.flushes = true) (addCredentialInfo env fileEnv userId c db) := by
  rw [(h.addCredentialInfo env fileEnv userId c).durableIff]
  unfold UserTable.add
  split
  · split_ifs
    · exact fun hok => UserTable.save_durable_iff hok
    · intro hok
      cases hok
  · split_ifs
    · split
      · intro hok
        cases hok
      · exact UserTable.addToUser_durableIff _ _ _ _ _
    · exact UserTable.addToUser_durableIff _ _ _ _ _

theorem deleteUserInfo_durableIff (h : db.Coherent) (available : Bool) (fileEnv : FileEnv)
    (userId : Int32) :
    DurableIff (fileEnv.write.flushes = true) (deleteUserInfo available fileEnv userId db) := by
  rw [(h.deleteUserInfo available fileEnv userId).durableIff]
  intro hok
  rcases db.table.deleteUser_cases available fileEnv userId with ⟨_, e, he⟩ | ⟨user, _, _, he⟩
  · rw [he] at hok
    cases hok
  · rw [he] at hok ⊢
    exact UserTable.save_durable_iff hok

theorem deleteCredentialInfo_durableIff (h : db.Coherent) (fileEnv : FileEnv) (userId : Int32)
    (credentialId : UInt64) (c : CredentialInfoHal) :
    DurableIff (DeletionOnFile fileEnv userId credentialId db)
      (deleteCredentialInfo fileEnv userId credentialId c db) := by
  rw [(h.deleteCredentialInfo fileEnv userId credentialId c).durableIff]
  intro hok
  rcases db.table.delete_cases fileEnv userId credentialId c with
    ⟨_, e, he⟩ | ⟨user, found, hf, hq, hcases⟩
  · rw [he] at hok
    cases hok
  obtain ⟨users, hl, hlook⟩ := Option.bind_eq_some_iff.mp hf
  -- the condition speaks of the one user and the one credential that are found
  have hcond : DeletionOnFile fileEnv userId credentialId db ↔
      if (queryCredentialByAuthType found.authType
          (user.withoutCredential credentialId).credentialInfoList).isSome = true then
        db.file = some (fileBytes (put UserInfo.userId (user.withoutCredential credentialId) users))
      else fileEnv.write.flushes = true := by
    refine ⟨fun hall => hall users user found hl hlook hq, ?_⟩
    intro hone users' user' found' hl' hlook' hq'
    obtain rfl := Option.some.inj (hl.symm.trans hl')
    obtain rfl := Option.some.inj (hlook.symm.trans hlook')
    obtain rfl := Option.some.inj (hq.symm.trans hq')
    exact hone
  rw [hcond]
  rcases hcases with ⟨hother, he⟩ | ⟨hlast, ⟨_, he⟩ | ⟨_, he⟩⟩
  · rw [he, if_pos hother, UserTable.put_users hl]
    exact Iff.rfl
  · have hnone : ¬(queryCredentialByAuthType found.authType
        (user.withoutCredential credentialId).credentialInfoList).isSome = true := by
      simp [hlast]
    rw [he] at hok ⊢
    rw [if_neg hnone]
    exact UserTable.save_durable_iff hok
  · rw [he] at hok
    cases hok

/-- In every reachable state, a call that reports success leaves the list in the file
exactly when what it writes is flushed; the deletion of a credential of a type of which
another one is left writes nothing, and is durable exactly when the file holds the
reduced list already. -/
theorem success_durable_iff (h : db.Reachable) :
    (∀ env fileEnv userId c,
      DurableIff (fileEnv.write.flushes = true) (addCredentialInfo env fileEnv userId c db)) ∧
      (∀ available fileEnv userId,
        DurableIff (fileEnv.write.flushes = true) (deleteUserInfo available fileEnv userId db)) ∧
      ∀ fileEnv userId credentialId c,
        DurableIff (DeletionOnFile fileEnv userId credentialId db)
          (deleteCredentialInfo fileEnv userId credentialId c db) :=
  ⟨addCredentialInfo_durableIff h.coherent, deleteUserInfo_durableIff h.coherent,
    deleteCredentialInfo_durableIff h.coherent⟩

/-- The outcomes of a rewrite whose flush fails and leaves the file empty. -/
def emptiedFile : FileEnv := ⟨true, fun _ => true, .notFlushed preApplyLen⟩

/-- The addition of a face to the user with a PIN, flushed and not. -/
theorem success_durable_iff_one_pin :
    ((addCredentialInfo .favourable .favourable 5 ⟨0, faceAuth, 0, 8, 0⟩ onePin).2.2.file =
      (addCredentialInfo .favourable .favourable 5 ⟨0, faceAuth, 0, 8, 0⟩ onePin).2.2.users.map
        fileBytes) ∧
    (addCredentialInfo .favourable emptiedFile 5 ⟨0, faceAuth, 0, 8, 0⟩ onePin).1 = .ok () ∧
    (addCredentialInfo .favourable emptiedFile 5 ⟨0, faceAuth, 0, 8, 0⟩ onePin).2.2.file ≠
      (addCredentialInfo .favourable emptiedFile 5 ⟨0, faceAuth, 0, 8, 0⟩ onePin).2.2.users.map
        fileBytes := by
  have hr : onePin.Reachable := ⟨none, Database.empty_reachable.run _⟩
  have hadd := (success_durable_iff hr).1 .favourable .favourable 5 ⟨0, faceAuth, 0, 8, 0⟩
    (by decide +kernel)
  have hlost : (addCredentialInfo .favourable emptiedFile 5 ⟨0, faceAuth, 0, 8, 0⟩ onePin).1 =
      .ok () := by decide +kernel
  have hnot := (success_durable_iff hr).1 .favourable emptiedFile 5 ⟨0, faceAuth, 0, 8, 0⟩ hlost
  exact ⟨hadd.mpr rfl, hlost, fun heq => absurd (hnot.mp heq) (by decide)⟩

/-- A user with a PIN and two faces; the credential ids are 1, 2 and 3. -/
def twoFaces : Database := Database.empty.run
  [.addCredentialInfo .favourable .favourable 5 ⟨0, pinAuth, 0, 7, 0⟩,
    .addCredentialInfo .favourable .favourable 5 ⟨0, faceAuth, 0, 8, 0⟩,
    .addCredentialInfo .favourable .favourable 5 ⟨0, faceAuth, 0, 9, 0⟩]

/-- The deletion of the second face reports success and leaves it in the file. -/
theorem deletion_not_durable :
    ¬∀ db, Database.Reachable db → ∀ fileEnv userId credentialId c,
      Durable (deleteCredentialInfo fileEnv userId credentialId c db) := by
  intro h
  have hfile := h twoFaces ⟨none, Database.empty_reachable.run _⟩ .favourable 5 3 default
    (by decide +kernel)
  revert hfile
  decide +kernel

end AuthExecutorMgr

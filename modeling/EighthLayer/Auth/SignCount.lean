import EighthLayer.Auth.Passkeys
import EighthLayer.Lib.JsonFields

/-!
# EighthLayer.Auth.SignCount

What passkey logins do to the count of a credential, and to the challenges.

A challenge is taken out of the cache by the statement that reads it, so each is consumed once
(`consumed_le_issued`). The count of a credential is read by one statement and written by a later
one: it rises, and a login is above the count that it replaces, where no other login has raised it
between the two (`passkey_counts`).
-/

namespace EighthLayer.Auth

open Lib
open Directory (member asText)

/-! ## Challenges -/

/-- The event caches the challenge. -/
def Issues (challenge : Bytes) : Event PasskeyStmt.Answer → Bool
  | ⟨_, .storeChallenge _ challenge' _, _⟩ => challenge' = challenge
  | _ => false

/-- The event takes the challenge out of the cache, for a route that finishes a ceremony. -/
def Consumes (challenge : Bytes) : Event PasskeyStmt.Answer → Bool
  | ⟨_, .consumeChallenge _, entry⟩ => entry.any fun entry => entry.challenge = challenge
  | _ => false

/-- How often the challenge is in the cache. -/
def PasskeyStore.cached (s : PasskeyStore) (challenge : Bytes) : Nat :=
  s.challenges.rows.countP fun entry => entry.challenge = challenge

/-- What has been consumed or is still to be has been issued, or was there at the start. -/
def Accounted (challenge : Bytes) (first : Nat) (w : PasskeyWorld) : Prop :=
  w.log.countP (Consumes challenge) + w.db.cached challenge ≤
    w.log.countP (Issues challenge) + first

/-- A challenge is cached once more at most. -/
theorem cached_storeChallenge_le (s : PasskeyStore) (username : String) (challenge challenge' : Bytes)
    (userIdBytes : Option Bytes) :
    (s.storeChallenge username challenge' userIdBytes).cached challenge ≤
      s.cached challenge + if challenge' = challenge then 1 else 0 := by
  unfold PasskeyStore.cached PasskeyStore.storeChallenge
  rw [(Table.perm_upsert _ _).countP_eq, List.countP_cons]
  have hle := Table.countP_delete_le s.challenges (fun entry => entry.username = username)
    fun entry => entry.challenge = challenge
  simpa using hle

/-- A challenge that is consumed is cached once less. -/
theorem cached_consumeChallenge_le (s : PasskeyStore) (username : String) (challenge : Bytes) :
    (s.consumeChallenge username).2.cached challenge +
        (if (s.consumeChallenge username).1.any fun entry => entry.challenge = challenge
          then 1 else 0) ≤
      s.cached challenge := by
  unfold PasskeyStore.cached PasskeyStore.consumeChallenge
  cases hfind : s.challenges.find username with
  | none => exact Table.countP_delete_le _ _ _
  | some entry =>
      rw [(Table.perm_of_find hfind).countP_eq, List.countP_cons]
      refine Nat.add_le_add_left ?_ _
      by_cases hfresh : s.clock ≤ entry.expiresAt
      · simp [Option.filter, hfresh]
      · simp [Option.filter, hfresh]

theorem insertCredential_cases (s : PasskeyStore) (userId : Nat) (credentialId publicKey : Bytes)
    (signCount : Nat) (transports : Option String) (aaguid : Option Bytes) (name : Option String) :
    (PasskeyStmt.insertCredential userId credentialId publicKey signCount transports aaguid
        name).exec s = (none, s) ∨
      ∃ row credentials, s.credentials.insert row = some credentials ∧
        (PasskeyStmt.insertCredential userId credentialId publicKey signCount transports aaguid
          name).exec s = (some (s.lastCredentialId + 1),
            { s with credentials, lastCredentialId := s.lastCredentialId + 1 }) := by
  cases h : s.insertCredential userId credentialId publicKey signCount transports aaguid name with
  | none =>
      simp only [PasskeyStmt.exec, h]
      exact .inl trivial
  | some result =>
      simp only [PasskeyStmt.exec, h]
      unfold PasskeyStore.insertCredential at h
      split at h
      · obtain ⟨credentials, hinsert, rfl⟩ := Option.map_eq_some_iff.mp h
        exact .inr ⟨_, credentials, hinsert, rfl⟩
      · cases h

/-- **The step lemma** for challenges. -/
theorem accounted_exec {challenge : Bytes} {first : Nat} (w : PasskeyWorld) (i : Nat)
    (q : PasskeyStmt) (h : Accounted challenge first w) :
    Accounted challenge first (w.exec i q) := by
  unfold Accounted at *
  rw [World.exec_log, World.exec_db, List.countP_cons, List.countP_cons]
  cases q with
  | storeChallenge username challenge' userIdBytes =>
      have hle := cached_storeChallenge_le w.db username challenge challenge' userIdBytes
      simp only [Consumes, Issues, decide_eq_true_eq, Bool.false_eq_true, if_false]
      exact Nat.le_trans (Nat.add_le_add_left hle _) (by omega)
  | consumeChallenge username =>
      have hle := cached_consumeChallenge_le w.db username challenge
      simp only [Issues, Bool.false_eq_true, if_false]
      refine Nat.le_trans ?_ h
      rw [Nat.add_right_comm, Nat.add_assoc]
      exact Nat.add_le_add_left hle _
  | insertCredential userId credentialId publicKey signCount transports aaguid name =>
      have hcached : ((PasskeyStmt.insertCredential userId credentialId publicKey signCount
          transports aaguid name).exec w.db).2.cached challenge = w.db.cached challenge := by
        rcases insertCredential_cases w.db userId credentialId publicKey signCount transports aaguid
          name with heq | ⟨row, credentials, -, heq⟩
        · rw [heq]
        · rw [heq]
          rfl
      exact Nat.le_trans (Nat.le_of_eq (congrArg _ hcached)) h
  | _ => exact h

/-- **Each challenge is consumed once.** At any time of a run no challenge has been consumed more
often than it has been issued. -/
theorem consumed_le_issued (lib : PasskeyLibrary) (s : PasskeyStore) (calls : List PasskeyCall)
    (schedule : List Nat) (challenge : Bytes) :
    ((passkeysStart lib s calls).run schedule).world.log.countP (Consumes challenge) ≤
      ((passkeysStart lib s calls).run schedule).world.log.countP (Issues challenge) +
        s.cached challenge := by
  have hstart : Accounted challenge (s.cached challenge) (passkeysStart lib s calls).world :=
    Nat.le_refl _
  exact Nat.le_of_add_right_le (Config.run_world (fun w i q h => accounted_exec w i q h) hstart
    schedule)

/-! ## Counts -/

/-- The count of the credential is not above another one. -/
def CountLe (s s' : PasskeyStore) (credentialId : Bytes) : Prop :=
  ∀ c ∈ s.credentials.find credentialId, ∃ c' ∈ s'.credentials.find credentialId,
    c.signCount ≤ c'.signCount

/-- A count may be replaced: the new one is above it, or both are zero. -/
def MayReplace (signCount newSignCount : Nat) : Prop :=
  signCount < newSignCount ∨ (signCount = 0 ∧ newSignCount = 0)

theorem MayReplace.le {signCount newSignCount : Nat} (h : MayReplace signCount newSignCount) :
    signCount ≤ newSignCount := by
  rcases h with hlt | ⟨rfl, rfl⟩
  · exact Nat.le_of_lt hlt
  · exact Nat.le_refl _

/-- The update of a login is above the count that is stored, or both are zero. -/
def AboveStored (_i : Nat) : PasskeyStmt → PasskeyStore → Prop
  | .updateSignCount credentialId newSignCount _, s =>
      ∀ c ∈ s.credentials.find credentialId, MayReplace c.signCount newSignCount
  | _, _ => True

theorem countLe_refl (s : PasskeyStore) (credentialId : Bytes) : CountLe s s credentialId :=
  fun c hc => ⟨c, hc, Nat.le_refl _⟩

theorem CountLe.trans {s₁ s₂ s₃ : PasskeyStore} {credentialId : Bytes}
    (h : CountLe s₁ s₂ credentialId) (h' : CountLe s₂ s₃ credentialId) :
    CountLe s₁ s₃ credentialId := by
  intro c₁ hc₁
  obtain ⟨c₂, hc₂, hle⟩ := h c₁ hc₁
  obtain ⟨c₃, hc₃, hle'⟩ := h' c₂ hc₂
  exact ⟨c₃, hc₃, Nat.le_trans hle hle'⟩

theorem find_updateSignCount (s : PasskeyStore) (credentialId credentialId' : Bytes)
    (newSignCount : Nat) (lastUsedAt : Int) :
    (s.updateSignCount credentialId' newSignCount lastUsedAt).credentials.find credentialId =
      (s.credentials.find credentialId).map fun c => if c.credentialId = credentialId' then
        { c with signCount := newSignCount, lastUsedAt := some lastUsedAt } else c := by
  unfold PasskeyStore.updateSignCount
  simp only [Table.find_update, decide_eq_true_eq]

/-- **The step lemma** for counts. -/
theorem countLe_exec {s : PasskeyStore} {i : Nat} {q : PasskeyStmt} (h : AboveStored i q s)
    (credentialId : Bytes) : CountLe s (q.exec s).2 credentialId := by
  cases q with
  | updateSignCount credentialId' newSignCount lastUsedAt =>
      intro c hc
      obtain ⟨-, hid⟩ := Table.find_eq_some_iff.mp hc
      refine ⟨_, (find_updateSignCount s credentialId credentialId' newSignCount lastUsedAt).trans
        (congrArg _ hc), ?_⟩
      dsimp only
      split
      · rename_i hself
        exact (h c (by rw [← hself, hid]; exact hc)).le
      · exact Nat.le_refl _
  | insertCredential userId credentialId' publicKey signCount transports aaguid name =>
      rcases insertCredential_cases s userId credentialId' publicKey signCount transports aaguid
        name with heq | ⟨row, credentials, hinsert, heq⟩
      · rw [heq]
        exact countLe_refl s credentialId
      · rw [heq]
        exact fun c hc => ⟨c, Table.find_insert_of_some hinsert hc, Nat.le_refl _⟩
  | _ => exact countLe_refl s credentialId

/-- A run all of whose updates are above what is stored lowers no count. -/
theorem countLe_run {c : Config PasskeyStore PasskeyStmt.Answer PasskeyAnswer}
    {schedule : List Nat} (hmeets : c.Meets (Config.Next AboveStored) schedule)
    (credentialId : Bytes) : CountLe c.world.db (c.run schedule).world.db credentialId := by
  refine Config.run_induction (P := fun c' => CountLe c.world.db c'.world.db credentialId)
    (fun c' i hle hok => ?_) (countLe_refl _ _) hmeets
  rcases c'.step_cases i with heq | ⟨q, k, htask, heq⟩
  · rw [heq]
    exact hle
  · rw [heq]
    exact hle.trans (countLe_exec (hok.ok htask) credentialId)

/-! ## What a login has read -/

/-- The row of a credential that a statement has been answered. -/
def readCredential (credentialId : Bytes) : Event PasskeyStmt.Answer → Option Credential
  | ⟨_, .getCredential credentialId', row⟩ => if credentialId' = credentialId then row else none
  | _ => none

/-- A login that is about to write a count may replace with it the one that it has read; one that
is answered has written its count, and has consumed a challenge. -/
def Verified (i : Nat) (past : List (Event PasskeyStmt.Answer)) :
    PasskeyProg PasskeyAnswer → Prop
  | .call (.updateSignCount credentialId newSignCount _) _ => ∀ e ∈ past, e.task = i →
      ∀ c ∈ readCredential credentialId e, MayReplace c.signCount newSignCount
  | .done (.loggedIn _ username signCount) =>
      (∃ credentialId lastUsedAt,
        asked i (.updateSignCount credentialId signCount lastUsedAt) () ∈ past) ∧
      ∃ entry, asked i (.consumeChallenge username) (some entry) ∈ past
  | _ => True

/-- No login has raised the count of the credential above the one that the request has read. -/
def CountAsRead (i : Nat) : PasskeyStmt → PasskeyWorld → Prop
  | .updateSignCount credentialId _ _, w => ∃ e ∈ w.log, e.task = i ∧
      ∃ c ∈ readCredential credentialId e,
        ∀ c' ∈ w.db.credentials.find credentialId, c'.signCount ≤ c.signCount
  | _, _ => True

instance (i : Nat) (q : PasskeyStmt) (w : PasskeyWorld) : Decidable (CountAsRead i q w) := by
  cases q with
  | updateSignCount credentialId newSignCount lastUsedAt =>
      exact inferInstanceAs (Decidable (∃ e ∈ w.log, _))
  | _ => exact inferInstanceAs (Decidable True)

/-- **What the condition is for.** -/
theorem aboveStored_of_asRead {i : Nat} {q : PasskeyStmt} {w : PasskeyWorld}
    {k : q.Answer → PasskeyProg PasskeyAnswer} (hverified : Verified i (w.own i) (.call q k))
    (hread : CountAsRead i q w) : AboveStored i q w.db := by
  cases q with
  | updateSignCount credentialId newSignCount lastUsedAt =>
      intro c' hc'
      obtain ⟨e, he, htask, c, hc, hle⟩ := hread
      have hmay := hverified e (World.mem_own.mpr ⟨he, htask⟩) htask c hc
      have hle' := hle c' hc'
      rcases hmay with hlt | ⟨hzero, hnew⟩
      · exact .inl (Nat.lt_of_le_of_lt hle' hlt)
      · exact .inr ⟨Nat.le_zero.mp (hzero ▸ hle'), hnew⟩
  | _ => trivial

section Trace

variable {i : Nat} {past : List (Event PasskeyStmt.Answer)}

theorem verified_done {a : PasskeyAnswer}
    (ha : ∀ token username signCount, a ≠ .loggedIn token username signCount) :
    (Prog.done a : PasskeyProg PasskeyAnswer).Always (Verified i) i past := by
  refine .done ?_
  cases a with
  | loggedIn token username signCount => exact absurd rfl (ha token username signCount)
  | _ => trivial

theorem verified_call {q : PasskeyStmt} {k : q.Answer → PasskeyProg PasskeyAnswer}
    (hq : ∀ credentialId newSignCount lastUsedAt,
      q ≠ .updateSignCount credentialId newSignCount lastUsedAt)
    (hrest : ∀ a, (k a).Always (Verified i) i (asked i q a :: past)) :
    (Prog.call q k).Always (Verified i) i past := by
  refine .call ?_ hrest
  cases q with
  | updateSignCount credentialId newSignCount lastUsedAt => exact absurd rfl (hq _ _ _)
  | _ => trivial

/-- A login verifies against the one row that it has read. -/
theorem verified_loginWith (lib : PasskeyLibrary) (username : String) (credential : Json)
    (row : Credential) (credentialId : Bytes)
    (hpast : ∀ e ∈ past, ∀ c ∈ readCredential credentialId e, c = row) :
    (loginWith lib username credential row credentialId).Always (Verified i) i past := by
  refine verified_call (fun _ _ _ h => nomatch h) fun (entry : Option ChallengeEntry) => ?_
  cases entry with
  | none => exact verified_done fun _ _ _ h => nomatch h
  | some entry =>
      dsimp only
      split
      · exact verified_done fun _ _ _ h => nomatch h
      · exact verified_done fun _ _ _ h => nomatch h
      · rename_i newSignCount hverify
        refine verified_call (fun _ _ _ h => nomatch h) fun (lastUsedAt : Int) => ?_
        refine .call (fun e he _ c hc => ?_) fun (_ : Unit) => ?_
        · rcases List.mem_cons.mp he with rfl | he
          · cases hc
          rcases List.mem_cons.mp he with rfl | he
          · cases hc
          rw [hpast e he c hc]
          exact lib.count_above hverify
        · refine verified_call (fun _ _ _ h => nomatch h) fun (now : Int) => .done ⟨?_, ?_⟩
          · exact ⟨credentialId, lastUsedAt, .tail _ (.head _)⟩
          · exact ⟨entry, .tail _ (.tail _ (.tail _ (.head _)))⟩

theorem verified_loginFinish (lib : PasskeyLibrary) (username : String) (credential : Json) :
    (loginFinish lib username credential).Always (Verified i) i [] := by
  refine verified_call (fun _ _ _ h => nomatch h) fun (user : Option PasskeyUser) => ?_
  cases user with
  | none => exact verified_done fun _ _ _ h => nomatch h
  | some u =>
      refine verified_call (fun _ _ _ h => nomatch h)
        fun (assignment : Option PasskeyAssignment) => ?_
      split
      · exact verified_done fun _ _ _ h => nomatch h
      · cases rawIdOf credential with
        | none => exact verified_done fun _ _ _ h => nomatch h
        | some rawId =>
            cases hid : lib.base64urlToBytes rawId with
            | none =>
                simp only [hid]
                exact verified_done fun _ _ _ h => nomatch h
            | some credentialId =>
                simp only [hid]
                refine verified_call (fun _ _ _ h => nomatch h) fun (row : Option Credential) => ?_
                cases row with
                | none => exact verified_done fun _ _ _ h => nomatch h
                | some row =>
                    dsimp only
                    split
                    · refine verified_loginWith lib username credential row credentialId
                        fun e he c hc => ?_
                      rcases List.mem_cons.mp he with rfl | he
                      · have heq : readCredential credentialId
                            (asked i (.getCredential credentialId) (some row)) = some row :=
                          if_pos rfl
                        exact Option.some.inj (hc.symm.trans heq)
                      rcases List.mem_cons.mp he with rfl | he
                      · cases hc
                      rcases List.mem_cons.mp he with rfl | he
                      · cases hc
                      · cases he
                    · exact verified_done fun _ _ _ h => nomatch h

theorem verified_enrollFinish (lib : PasskeyLibrary) (username : String) (credential : Json)
    (name : Option String) (transports : Option (List String)) :
    (enrollFinish lib username credential name transports).Always (Verified i) i [] := by
  refine verified_call (fun _ _ _ h => nomatch h) fun (user : Option PasskeyUser) => ?_
  cases user with
  | none => exact verified_done fun _ _ _ h => nomatch h
  | some u =>
      refine verified_call (fun _ _ _ h => nomatch h) fun (entry : Option ChallengeEntry) => ?_
      cases entry with
      | none => exact verified_done fun _ _ _ h => nomatch h
      | some entry =>
          dsimp only
          split
          · exact verified_done fun _ _ _ h => nomatch h
          · exact verified_done fun _ _ _ h => nomatch h
          · split
            · exact verified_done fun _ _ _ h => nomatch h
            · refine verified_call (fun _ _ _ h => nomatch h) fun (id : Option Nat) => ?_
              cases id with
              | none => exact verified_done fun _ _ _ h => nomatch h
              | some id => exact verified_done fun _ _ _ h => nomatch h

theorem verified_prog (lib : PasskeyLibrary) (call : PasskeyCall) :
    (call.prog lib).Always (Verified i) i [] := by
  cases call with
  | enrollBegin username challenge =>
      refine verified_call (fun _ _ _ h => nomatch h) fun (user : Option PasskeyUser) => ?_
      cases user with
      | none => exact verified_done fun _ _ _ h => nomatch h
      | some u =>
          refine verified_call (fun _ _ _ h => nomatch h) fun (existing : List Credential) => ?_
          split
          · exact verified_done fun _ _ _ h => nomatch h
          · refine verified_call (fun _ _ _ h => nomatch h) fun (_ : Unit) => ?_
            exact verified_done fun _ _ _ h => nomatch h
  | enrollFinish username credential name transports =>
      exact verified_enrollFinish lib username credential name transports
  | loginBegin username challenge =>
      refine verified_call (fun _ _ _ h => nomatch h) fun (user : Option PasskeyUser) => ?_
      cases user with
      | none => exact verified_done fun _ _ _ h => nomatch h
      | some u =>
          refine verified_call (fun _ _ _ h => nomatch h) fun (creds : List Credential) => ?_
          split
          · exact verified_done fun _ _ _ h => nomatch h
          · refine verified_call (fun _ _ _ h => nomatch h) fun (_ : Unit) => ?_
            exact verified_done fun _ _ _ h => nomatch h
  | loginFinish username credential => exact verified_loginFinish lib username credential
  | tick d =>
      refine verified_call (fun _ _ _ h => nomatch h) fun (_ : Unit) => ?_
      exact verified_done fun _ _ _ h => nomatch h

end Trace

/-! ## Runs -/

/-- The tasks of a run, as they start. -/
theorem verified_tasks (lib : PasskeyLibrary) (s : PasskeyStore) (calls : List PasskeyCall)
    (i : Nat) (p : PasskeyProg PasskeyAnswer)
    (hp : (passkeysStart lib s calls).tasks[i]? = some p) :
    p.Always (Verified i) i ((passkeysStart lib s calls).world.own i) := by
  obtain ⟨call, -, rfl⟩ := List.mem_map.mp (List.mem_of_getElem? hp)
  exact verified_prog lib call

/-- **Passkey logins.** No challenge is consumed more often than it has been issued. Whoever is
logged in has consumed one, and has written the count of the login. In a run where no update finds
a count above the one that its request has read, no count is ever lowered, and every update is above
the count that is stored, unless both are zero. -/
theorem passkey_counts (lib : PasskeyLibrary) (s : PasskeyStore) (calls : List PasskeyCall)
    (schedule : List Nat) :
    (∀ challenge,
      ((passkeysStart lib s calls).run schedule).world.log.countP (Consumes challenge) ≤
        ((passkeysStart lib s calls).run schedule).world.log.countP (Issues challenge) +
          s.cached challenge) ∧
    (∀ i token username signCount,
      ((passkeysStart lib s calls).run schedule).Answered i (.loggedIn token username signCount) →
        (∃ credentialId lastUsedAt, asked i (.updateSignCount credentialId signCount lastUsedAt) () ∈
          ((passkeysStart lib s calls).run schedule).world.log) ∧
        ∃ entry, asked i (.consumeChallenge username) (some entry) ∈
          ((passkeysStart lib s calls).run schedule).world.log) ∧
    ((passkeysStart lib s calls).Meets (Config.NextIn CountAsRead) schedule →
      (passkeysStart lib s calls).Meets (Config.Next AboveStored) schedule ∧
      ∀ s₁ s₂, s₁ ++ s₂ = schedule → ∀ credentialId,
        CountLe ((passkeysStart lib s calls).run s₁).world.db
          ((passkeysStart lib s calls).run schedule).world.db credentialId) := by
  refine ⟨consumed_le_issued lib s calls schedule, fun i token username signCount hanswered => ?_,
    fun hmeets => ?_⟩
  · have hlt : i < (passkeysStart lib s calls).tasks.length := by
      rw [← Config.run_length _ schedule]
      exact (List.getElem?_eq_some_iff.mp hanswered).1
    have htask := List.getElem?_eq_getElem hlt
    obtain ⟨p, hp, halways⟩ :=
      Config.run_always htask (verified_tasks lib s calls i _ htask) schedule
    obtain rfl := Option.some.inj (hp.symm.trans hanswered)
    obtain ⟨⟨credentialId, lastUsedAt, hupdate⟩, entry, hconsume⟩ := halways.now
    exact ⟨⟨credentialId, lastUsedAt, (World.mem_own.mp hupdate).1⟩,
      entry, (World.mem_own.mp hconsume).1⟩
  · have habove : (passkeysStart lib s calls).Meets (Config.Next AboveStored) schedule :=
      Config.meets_guarded (fun c i q k htask hverified hok =>
        aboveStored_of_asRead hverified (hok.ok htask)) (verified_tasks lib s calls) hmeets
    refine ⟨habove, ?_⟩
    rintro s₁ s₂ rfl credentialId
    rw [Config.run_append]
    exact countLe_run (Config.meets_append.mp habove).2 credentialId

/-! ### Two logins

The sample library takes an assertion whose challenge and count stand in its JSON. -/

/-- The count that a sample assertion says. -/
def sampleSignCount (credential : Json) : Nat :=
  (((member credential "signCount").bind Json.integer).getD 0).toNat

/-- An assertion is verified against the challenge and the count. -/
def sampleVerify (credential : Json) (challenge _publicKey : Bytes) (currentSignCount : Nat) :
    Except VerifyError Nat :=
  if (member credential "challenge").bind asText = some (String.ofList (b64Encode challenge)) ∧
      currentSignCount < sampleSignCount credential then .ok (sampleSignCount credential)
  else .error .invalid

def sampleLibrary : PasskeyLibrary where
  base64urlToBytes s := b64Decode s.toList
  bytesToBase64url bs := String.ofList (b64Encode bs)
  verifyRegistration _ _ := .error .invalid
  verifyAuthentication := sampleVerify
  createToken username _ := username
  count_above := by
    intro credential challenge publicKey currentSignCount newSignCount h
    unfold sampleVerify at h
    split at h
    · rename_i hok
      cases h
      exact .inl hok.2
    · cases h

/-- Alice has a passkey, last used with count 5. -/
def sampleStore : PasskeyStore where
  clock := 0
  users := ⟨[⟨"alice", 1⟩], by decide⟩
  assignments := Table.empty
  credentials := ⟨[⟨1, 1, [97, 98, 99], [1], 5, none, none, none, 0, none⟩], by decide⟩
  lastCredentialId := 1
  challenges := Table.empty

/-- An assertion of Alice's passkey. -/
def sampleAssertion (challenge : Bytes) (signCount : Nat) : Json :=
  .obj [("rawId", .str "YWJj"), ("challenge", .str (String.ofList (b64Encode challenge))),
    ("signCount", .ofNat signCount)]

/-- Two logins of Alice, each begun and finished. -/
def twoLogins : Config PasskeyStore PasskeyStmt.Answer PasskeyAnswer :=
  passkeysStart sampleLibrary sampleStore
    [.loginBegin "alice" [1, 1, 1], .loginFinish "alice" (sampleAssertion [1, 1, 1] 6),
      .loginBegin "alice" [2, 2, 2], .loginFinish "alice" (sampleAssertion [2, 2, 2] 7)]

/-- One after the other, they raise the count. -/
theorem passkey_counts_sample :
    twoLogins.Meets (Config.Next AboveStored)
      [0, 0, 0, 1, 1, 1, 1, 1, 1, 1, 2, 2, 2, 3, 3, 3, 3, 3, 3, 3] ∧
    CountLe (twoLogins.run [0, 0, 0, 1, 1, 1, 1, 1, 1, 1]).world.db
      (twoLogins.run [0, 0, 0, 1, 1, 1, 1, 1, 1, 1, 2, 2, 2, 3, 3, 3, 3, 3, 3, 3]).world.db
        [97, 98, 99] := by
  have h := (passkey_counts sampleLibrary sampleStore _
    [0, 0, 0, 1, 1, 1, 1, 1, 1, 1, 2, 2, 2, 3, 3, 3, 3, 3, 3, 3]).2.2
      (show twoLogins.Meets (Config.NextIn CountAsRead) _ by decide +kernel)
  exact ⟨h.1, h.2 [0, 0, 0, 1, 1, 1, 1, 1, 1, 1] _ rfl [97, 98, 99]⟩

/-- The first has verified its count when the second one begins and finishes. Then it writes its
count, which is below the one that is stored, and is answered. -/
theorem count_is_lowered :
    (twoLogins.run [0, 0, 0, 1, 1, 1, 1, 1, 2, 2, 2, 3, 3, 3, 3, 3, 3, 3]).Answered 3
      (.loggedIn "alice" "alice" 7) ∧
    ((twoLogins.run [0, 0, 0, 1, 1, 1, 1, 1, 2, 2, 2, 3, 3, 3, 3, 3, 3,
      3]).world.db.credentials.find [97, 98, 99]).map Credential.signCount = some 7 ∧
    (twoLogins.run [0, 0, 0, 1, 1, 1, 1, 1, 2, 2, 2, 3, 3, 3, 3, 3, 3, 3, 1, 1]).Answered 1
      (.loggedIn "alice" "alice" 6) ∧
    ((twoLogins.run [0, 0, 0, 1, 1, 1, 1, 1, 2, 2, 2, 3, 3, 3, 3, 3, 3, 3, 1,
      1]).world.db.credentials.find [97, 98, 99]).map Credential.signCount = some 6 := by
  refine ⟨?_, by decide +kernel, ?_, by decide +kernel⟩
  · rw [Config.answered_iff_result]
    decide +kernel
  · rw [Config.answered_iff_result]
    decide +kernel

end EighthLayer.Auth

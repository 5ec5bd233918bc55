import AisphereHub.Biz.NamespaceShare
import AisphereHub.Foundation.Transition

/-! The share rows of namespaces against the tuples that grant them. -/
namespace AisphereHub

open Transition

def IsShareTuple (r : AuthzRelationship) : Prop :=
  r.resource.type = "k8s_namespace" ∧ ∃ relation : ShareRelation, r.relation = relation.toString

def SharesAgree (s : KubeStore) : Prop :=
  ∀ r, IsShareTuple r → (r ∈ s.tuples ↔ ∃ share ∈ s.shares, share.tuple = r)

def SharesUnique (s : KubeStore) : Prop :=
  ∀ a ∈ s.shares, ∀ b ∈ s.shares, a.tuple = b.tuple → a.id = b.id

/-- After the call the tuples agree with the rows, and a delete has removed rows
of the namespace it was addressed to only. -/
def KeepsShares (s : KubeStore) (call : ShareCall) : Prop :=
  SharesAgree (call.serve s) ∧
    match call with
    | .create _ _ _ => True
    | .delete _ namespaceID _ _ =>
      ∀ share ∈ s.shares, share ∉ (call.serve s).shares → share.namespaceID = namespaceID

def NamesNoShare (s : KubeStore) (call : ShareCall) : Bool :=
  match call with
  | .create _ _ _ => true
  | .delete principal _ shareID answers =>
    match deleteAuthorized principal answers with
    | .error _ => true
    | .ok () => !(s.shares.any fun share => share.id == shareID)

theorem shareRelation_toString_injective {b : ShareRelation} (same : a.toString = b.toString) :
    a = b := by
  cases a <;> cases b <;> simp_all [ShareRelation.toString]

variable {s : KubeStore} {share : NamespaceShare} {shares : List NamespaceShare}

theorem insertShare_eq_ok (inserted : insertShare s share = .ok shares) :
    shares = s.shares ++ [share] ∧ (∀ other ∈ s.shares, other.id ≠ share.id) ∧
      ∀ other ∈ s.shares, other.tuple ≠ share.tuple := by
  unfold insertShare at inserted
  split_ifs at inserted with takenID missing takenTuple
  refine ⟨(Except.ok.inj inserted).symm, ?_, ?_⟩
  · intro other member same
    apply takenID
    exact List.any_eq_true.mpr ⟨other, member, by simpa using same⟩
  · intro other member same
    apply takenTuple
    simp only [NamespaceShare.tuple, namespaceResource, AuthzRelationship.mk.injEq,
      AuthzObjectRef.mk.injEq, true_and] at same
    refine List.any_eq_true.mpr ⟨other, member, ?_⟩
    simp [same.1, shareRelation_toString_injective same.2.1, same.2.2]

theorem deleteShareRow_inserted (free : ∀ other ∈ shares, other.id ≠ share.id) :
    deleteShareRow (shares ++ [share]) share.id = shares := by
  have kept : shares.filter (fun other => decide (other.id ≠ share.id)) = shares := by
    apply List.filter_eq_self.mpr
    intro other member
    simpa using free other member
  simp only [deleteShareRow, Keyed.remove, List.filter_append, kept]
  simp

theorem createShare_keeps (agree : SharesAgree s) (unique : SharesUnique s) (principal : Principal)
    (input : Option ShareInput) (answers : ShareAnswers) :
    SharesAgree (createShare s principal input answers).1 ∧
      SharesUnique (createShare s principal input answers).1 := by
  unfold createShare
  split
  · exact ⟨agree, unique⟩
  rename_i share authorized
  split
  · exact ⟨agree, unique⟩
  rename_i shares inserted
  obtain ⟨rfl, freeID, free⟩ := insertShare_eq_ok inserted
  split
  · simp only [deleteShareRow_inserted freeID]
    exact ⟨agree, unique⟩
  rename_i tuples written
  obtain ⟨_, _, rfl⟩ := writeRelationships_eq_ok.mp written
  constructor
  · intro r shared
    have before := agree r shared
    simp only [List.foldl, mem_touch, before, List.mem_append, List.mem_singleton]
    constructor
    · rintro (⟨other, member, rfl⟩ | rfl)
      · exact ⟨other, .inl member, rfl⟩
      · exact ⟨share, .inr rfl, rfl⟩
    · rintro ⟨other, member | rfl, rfl⟩
      · exact .inl ⟨other, member, rfl⟩
      · exact .inr rfl
  · intro a memberA b memberB same
    simp only [List.mem_append, List.mem_singleton] at memberA memberB
    rcases memberA with memberA | rfl <;> rcases memberB with memberB | rfl
    · exact unique a memberA b memberB same
    · exact absurd same (free a memberA)
    · exact absurd same.symm (free b memberB)
    · rfl

theorem mem_deleteShareRow {id} :
    share ∈ deleteShareRow shares id ↔ share ∈ shares ∧ share.id ≠ id := by
  simp [deleteShareRow, Keyed.remove]

theorem delete_breaks_agreement (agree : SharesAgree s) (unique : SharesUnique s)
    (member : share ∈ s.shares) :
    ¬SharesAgree { s with shares := deleteShareRow s.shares share.id } := by
  intro agreeAfter
  have stored : share.tuple ∈ s.tuples :=
    (agree share.tuple ⟨rfl, share.relation, rfl⟩).mpr ⟨share, member, rfl⟩
  obtain ⟨other, memberAfter, sameTuple⟩ :=
    (agreeAfter share.tuple ⟨rfl, share.relation, rfl⟩).mp stored
  obtain ⟨memberOther, otherID⟩ := mem_deleteShareRow.mp memberAfter
  exact otherID (unique other memberOther share member sameTuple)

theorem deleteShareRow_missing {id} (missing : ∀ share ∈ shares, share.id ≠ id)
    : deleteShareRow shares id = shares := by
  apply List.filter_eq_self.mpr
  intro share member
  simpa using missing share member

theorem keepsShares_iff (agree : SharesAgree s) (unique : SharesUnique s) (call : ShareCall)
    : KeepsShares s call ↔ NamesNoShare s call = true := by
  cases call with
  | create principal input answers =>
    have kept := createShare_keeps agree unique principal input answers
    simp only [KeepsShares, ShareCall.serve, NamesNoShare, kept.1, and_self]
  | delete principal namespaceID shareID answers =>
    cases authorized : deleteAuthorized principal answers with
    | error e =>
      have unchanged : (ShareCall.delete principal namespaceID shareID answers).serve s = s := by
        simp [ShareCall.serve, deleteShare, authorized]
      simp only [KeepsShares, NamesNoShare, authorized, unchanged, iff_true]
      refine ⟨agree, ?_⟩
      intro share member removed
      exact absurd member removed
    | ok _ =>
      have served : (ShareCall.delete principal namespaceID shareID answers).serve s =
          { s with shares := deleteShareRow s.shares shareID } := by
        simp [ShareCall.serve, deleteShare, authorized]
      simp only [KeepsShares, NamesNoShare, authorized, served, Bool.not_eq_true',
        List.any_eq_false, beq_iff_eq]
      constructor
      · rintro ⟨agreeAfter, _⟩ share member rfl
        exact delete_breaks_agreement agree unique member agreeAfter
      · intro missing
        rw [deleteShareRow_missing missing]
        refine ⟨agree, ?_⟩
        intro share member removed
        exact absurd member removed

theorem shareInvariant_step (s : KubeStore) (call : ShareCall) (t : KubeStore)
    (kept : KeepsShares s call) (holds : SharesAgree s ∧ SharesUnique s)
    (taken : shareStep s call = some t) : SharesAgree t ∧ SharesUnique t := by
  cases taken
  refine ⟨kept.1, ?_⟩
  cases call with
  | create principal input answers =>
    exact (createShare_keeps holds.1 holds.2 principal input answers).2
  | delete principal namespaceID shareID answers =>
    intro a memberA b memberB same
    have subset : ∀ share ∈ ((ShareCall.delete principal namespaceID shareID answers).serve
        s).shares, share ∈ s.shares := by
      intro share member
      simp only [ShareCall.serve, deleteShare] at member
      split at member
      · exact member
      · exact (mem_deleteShareRow.mp member).1
    exact holds.2 a (subset a memberA) b (subset b memberB) same

/-- From a store without shares, every call of a sequence keeps rows and tuples
in agreement, and deletes within its namespace, exactly when no authorized
delete names an existing share row. -/
theorem share_calls_agree_iff (s : KubeStore) (noRows : s.shares = [])
    (noTuples : ∀ r ∈ s.tuples, ¬IsShareTuple r) (calls : List ShareCall) :
    Guarded shareStep KeepsShares s calls ↔
      Guarded shareStep (fun s call => NamesNoShare s call = true) s calls := by
  have start : SharesAgree s ∧ SharesUnique s := by
    constructor
    · intro r shared
      simp only [noRows, List.not_mem_nil, false_and, exists_false, iff_false]
      intro stored
      exact noTuples r stored shared
    · intro a member
      simp [noRows] at member
  apply guarded_iff _ shareInvariant_step start
  intro t call holds
  exact keepsShares_iff holds.1 holds.2 call

def unsharedStore : KubeStore :=
  { namespaces :=
      [{ id := "ns-1", clusterID := "cl-1", kubeName := "team", revision := 1 },
       { id := "ns-2", clusterID := "cl-1", kubeName := "other", revision := 1 }] }

def shareWithBob (uuid : String) (fault : Option String) : ShareCall :=
  .create ⟨"user", "alice", ""⟩
    (some { namespaceID := "ns-1", relation := "viewer", subjectType := "user",
            subjectID := "bob" })
    { uuid := uuid, fault := fault }

def unshare (namespaceID shareID : String) : ShareCall :=
  .delete ⟨"user", "alice", ""⟩ namespaceID shareID {}

theorem share_calls_agree_with_failed_write :
    Guarded shareStep KeepsShares unsharedStore
      [shareWithBob "sh-1" (some "unavailable"), shareWithBob "sh-2" none, unshare "ns-1" "sh-1"] :=
  (share_calls_agree_iff unsharedStore rfl (by simp [unsharedStore])
    [shareWithBob "sh-1" (some "unavailable"), shareWithBob "sh-2" none, unshare "ns-1" "sh-1"]).mpr
    (by decide)

/-- Deleting a share leaves its tuple stored, and a delete addressed to another
namespace removes the row as well. -/
theorem deleteShare_leaves_tuple_and_crosses_namespaces :
    (∃ t, run shareStep unsharedStore [shareWithBob "sh-1" none, unshare "ns-1" "sh-1"]
        = some t ∧ t.shares = [] ∧
      ⟨namespaceResource "ns-1", "viewer", { type := "user", id := "bob" }⟩ ∈ t.tuples) ∧
    ∃ t u, run shareStep unsharedStore [shareWithBob "sh-1" none] = some t ∧
      (∃ share ∈ t.shares, share.namespaceID = "ns-1") ∧
      run shareStep t [unshare "ns-2" "sh-1"] = some u ∧ u.shares = [] :=
  ⟨⟨_, rfl, by decide, by decide⟩, _, _, rfl, by decide, rfl, by decide⟩

end AisphereHub

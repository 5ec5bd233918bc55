import AisphereHub.Data.NamespaceRepo

/-! Sharing a namespace: the share row and the tuple `CreateShare` writes, and
what `DeleteShare` takes away. Each call runs to its end before the next one. -/
namespace AisphereHub

structure ShareInput where
  id : String := ""
  namespaceID : String
  relation : String
  subjectType : String
  subjectID : String
  subjectRelation : String := ""
deriving DecidableEq

/-- What the environment answers during one share call. Only SpiceDB fails. -/
structure ShareAnswers where
  check : CheckAnswer := .allowed
  uuid : String := ""
  now : Nat := 0
  fault : Option String := none
deriving DecidableEq

def NamespaceShare.subject (share : NamespaceShare) : AuthzSubjectRef :=
  ⟨share.subjectType, share.subjectID, share.subjectRelation⟩

def NamespaceShare.tuple (share : NamespaceShare) : AuthzRelationship :=
  ⟨namespaceResource share.namespaceID, share.relation.toString, share.subject⟩

/-- `CreateShare` of the repository, under the primary key, the foreign key to
the namespaces and the unique constraint on namespace, relation and subject. -/
def insertShare (s : KubeStore) (share : NamespaceShare) : Except HubError (List NamespaceShare) :=
  if s.shares.any (fun other => other.id == share.id) then
    .error (.plain "namespace repo: create share: duplicate key")
  else if (Keyed.lookup Namespace.id s.namespaces share.namespaceID).isNone then
    .error (.plain "namespace repo: create share: foreign key violation")
  else if s.shares.any (fun other => other.namespaceID == share.namespaceID &&
      other.relation == share.relation && other.subject == share.subject) then
    .error (.plain "namespace repo: create share: duplicate key")
  else .ok (s.shares ++ [share])

/-- `DeleteShare` of the repository: `DELETE … WHERE id = ?`. -/
def deleteShareRow (shares : List NamespaceShare) (id : String) : List NamespaceShare :=
  Keyed.remove NamespaceShare.id shares id

/-- The checks of `CreateShare`, up to the row it is about to insert. -/
def shareAuthorized (principal : Principal) (input : Option ShareInput) (answers : ShareAnswers) :
    Except HubError NamespaceShare := do
  let input ← match input with
    | some input =>
      if input.namespaceID = "" ∨ input.subjectType = "" ∨ input.subjectID = "" then
        .error ⟨.INVALID_ARGUMENT, "namespace_id, subject_type, subject_id are required"⟩
      else .ok input
    | none => .error ⟨.INVALID_ARGUMENT, "namespace_id, subject_type, subject_id are required"⟩
  let relation ← match ShareRelation.ofString input.relation with
    | some relation => .ok relation
    | none => .error ⟨.INVALID_ARGUMENT, "relation must be viewer/user/editor"⟩
  let subject ← canonicalSubject principal
  answers.check.require "forbidden: no share permission on namespace"
  return { id := if input.id = "" then answers.uuid else input.id
           namespaceID := input.namespaceID
           relation := relation
           subjectType := input.subjectType
           subjectID := input.subjectID
           subjectRelation := input.subjectRelation
           syncStatus := .SYNCED
           createdByType := subject.type
           createdBy := subject.id
           createdAt := answers.now
           updatedAt := answers.now }

/-- `CreateShare`: the row first, then the tuple; a failed tuple write takes
the row back. -/
def createShare (s : KubeStore) (principal : Principal) (input : Option ShareInput)
    (answers : ShareAnswers) : KubeStore × Except HubError NamespaceShare :=
  match shareAuthorized principal input answers with
  | .error e => (s, .error e)
  | .ok share =>
    match insertShare s share with
    | .error e => (s, .error e)
    | .ok shares =>
      match writeRelationships s.tuples [share.tuple] answers.fault with
      | .error e =>
        ({ s with shares := deleteShareRow shares share.id },
          .error ⟨.FAILED_PRECONDITION, "share projection: " ++ e.detail⟩)
      | .ok tuples => ({ s with shares := shares, tuples := tuples }, .ok share)

def deleteAuthorized (principal : Principal) (answers : ShareAnswers) : Except HubError Unit := do
  let _ ← canonicalSubject principal
  answers.check.require "forbidden: no share permission on namespace"

/-- `DeleteShare`: the check is on the namespace the caller names, the delete on
the share id alone, and no tuple is touched. -/
def deleteShare (s : KubeStore) (principal : Principal) (_namespaceID shareID : String)
    (answers : ShareAnswers) : KubeStore × Except HubError Unit :=
  match deleteAuthorized principal answers with
  | .error e => (s, .error e)
  | .ok () => ({ s with shares := deleteShareRow s.shares shareID }, .ok ())

inductive ShareCall where
  | create (principal : Principal) (input : Option ShareInput) (answers : ShareAnswers)
  | delete (principal : Principal) (namespaceID shareID : String) (answers : ShareAnswers)
deriving DecidableEq

def ShareCall.serve (s : KubeStore) : ShareCall → KubeStore
  | .create principal input answers => (createShare s principal input answers).1
  | .delete principal namespaceID shareID answers =>
    (deleteShare s principal namespaceID shareID answers).1

def shareStep (s : KubeStore) (call : ShareCall) : Option KubeStore := some (call.serve s)

end AisphereHub

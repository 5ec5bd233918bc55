import AisphereHub.Biz.Error
import AisphereHub.Foundation.GoStrings
import Mathlib.Data.List.Basic

/-! Relationship tuples and the tuple store behind `AuthzUsecase`. Writing is
TOUCH: a tuple that is already stored stays stored once. An empty filter field
matches everything. Caveats and expiry are zero at every modelled call site and
are left out. -/
namespace AisphereHub

open GoStrings (trimSpace)

structure AuthzObjectRef where
  type : String
  id : String
deriving DecidableEq

structure AuthzSubjectRef where
  type : String
  id : String
  relation : String := ""
deriving DecidableEq

structure AuthzRelationship where
  resource : AuthzObjectRef
  relation : String
  subject : AuthzSubjectRef
deriving DecidableEq

structure AuthzRelationshipFilter where
  resourceType : String := ""
  resourceID : String := ""
  relation : String := ""
  subjectType : String := ""
  subjectID : String := ""
  subjectRelation : String := ""
deriving DecidableEq

def fieldMatches (wanted actual : String) : Bool :=
  wanted = "" || wanted = actual

def AuthzRelationshipFilter.matches (f : AuthzRelationshipFilter) (r : AuthzRelationship) : Bool :=
  fieldMatches f.resourceType r.resource.type && fieldMatches f.resourceID r.resource.id &&
    fieldMatches f.relation r.relation && fieldMatches f.subjectType r.subject.type &&
    fieldMatches f.subjectID r.subject.id && fieldMatches f.subjectRelation r.subject.relation

abbrev Tuples := List AuthzRelationship

def touch (tuples : Tuples) (r : AuthzRelationship) : Tuples :=
  if r ∈ tuples then tuples else tuples ++ [r]

def validateRelationship (r : AuthzRelationship) : Except HubError Unit :=
  if r.resource.type = "" ∨ r.resource.id = "" then
    .error ⟨.AUTHZ_INVALID_REQUEST, "resource.type and resource.id are required"⟩
  else if trimSpace r.relation = "" then
    .error ⟨.AUTHZ_INVALID_REQUEST, "relation is required"⟩
  else if r.subject.type = "" ∨ r.subject.id = "" then
    .error ⟨.AUTHZ_INVALID_REQUEST, "subject.type and subject.id are required"⟩
  else .ok ()

/-- `AuthzUsecase.WriteRelationships`; `fault` is the backend's failure, which
has no effect on the store. -/
def writeRelationships (tuples : Tuples) (rels : List AuthzRelationship)
    (fault : Option String) : Except HubError Tuples := do
  rels.forM validateRelationship
  match fault with
  | some cause => .error ⟨.AUTHZ_BACKEND_FAILED, cause⟩
  | none => .ok (rels.foldl touch tuples)

def validateFilter (f : AuthzRelationshipFilter) : Except HubError Unit :=
  if f = {} then .error ⟨.AUTHZ_INVALID_REQUEST, "at least one filter field must be set"⟩
  else .ok ()

def deleteRelationships (tuples : Tuples) (f : AuthzRelationshipFilter)
    (fault : Option String) : Except HubError Tuples := do
  validateFilter f
  match fault with
  | some cause => .error ⟨.AUTHZ_BACKEND_FAILED, cause⟩
  | none => .ok (tuples.filter fun r => !f.matches r)

def revokeResource (tuples : Tuples) (resource : AuthzObjectRef)
    (fault : Option String) : Except HubError Tuples :=
  deleteRelationships tuples { resourceType := resource.type, resourceID := resource.id } fault

def grantRole (tuples : Tuples) (resource : AuthzObjectRef) (relation : String)
    (subject : AuthzSubjectRef) (fault : Option String) : Except HubError Tuples :=
  if trimSpace relation = "" then .error ⟨.AUTHZ_INVALID_REQUEST, ""⟩
  else writeRelationships tuples [⟨resource, relation, subject⟩] fault

/-- The filter of `RevokeAll`: the relation of the tuple and the subject's own
relation are left empty. -/
def revokeAllFilter (resource : AuthzObjectRef) (subject : AuthzSubjectRef) :
    AuthzRelationshipFilter where
  resourceType := resource.type
  resourceID := resource.id
  subjectType := subject.type
  subjectID := subject.id

def revokeAll (tuples : Tuples) (resource : AuthzObjectRef) (subject : AuthzSubjectRef)
    (fault : Option String) : Except HubError Tuples :=
  deleteRelationships tuples (revokeAllFilter resource subject) fault

/-- The fields of `authn.Principal` the usecases read. -/
structure Principal where
  subjectType : String
  subjectID : String
  orgID : String := ""
deriving DecidableEq

def canonicalSubject (p : Principal) : Except HubError AuthzSubjectRef :=
  let t := trimSpace p.subjectType
  if t = "" then .error ⟨.UNSUPPORTED_PRINCIPAL_TYPE, ""⟩
  else
    let id := trimSpace p.subjectID
    if id = "" then .error ⟨.UNAUTHENTICATED, ""⟩
    else .ok { type := t, id := id }

inductive CheckAnswer where
  | allowed
  | denied
  | failed (cause : String)
deriving DecidableEq

/-- A check followed by the callers' own refusal of a denied decision. -/
def CheckAnswer.require (answer : CheckAnswer) (forbidden : String) : Except HubError Unit :=
  match answer with
  | .allowed => .ok ()
  | .denied => .error ⟨.PERMISSION_DENIED, forbidden⟩
  | .failed cause => .error ⟨.AUTHZ_BACKEND_FAILED, cause⟩

@[simp] theorem fieldMatches_empty (actual : String) : fieldMatches "" actual = true := rfl

theorem fieldMatches_iff (some : wanted ≠ "") :
    fieldMatches wanted actual = true ↔ actual = wanted := by
  simp [fieldMatches, some, eq_comm]

variable {tuples : Tuples}

theorem mem_touch : q ∈ touch tuples r ↔ q ∈ tuples ∨ q = r := by
  unfold touch
  split_ifs with stored
  · constructor
    · exact .inl
    · rintro (old | rfl)
      · exact old
      · exact stored
  · simp

theorem mem_foldl_touch {rels : Tuples} :
    q ∈ rels.foldl touch tuples ↔ q ∈ tuples ∨ q ∈ rels := by
  induction rels generalizing tuples with
  | nil => simp
  | cons r rest ih =>
    rw [List.foldl_cons, ih, mem_touch, List.mem_cons, or_assoc]

theorem forM_validate_ok {rels : List AuthzRelationship} :
    rels.forM validateRelationship = .ok () ↔ ∀ r ∈ rels, validateRelationship r = .ok () := by
  induction rels with
  | nil => simp [List.forM, pure, Except.pure]
  | cons r rest ih =>
    rw [List.forall_mem_cons, ← ih]
    cases checked : validateRelationship r with
    | error e | ok _ => simp [List.forM, checked, bind, Except.bind]

variable {fault : Option String}

theorem writeRelationships_eq_ok :
    writeRelationships tuples rels fault = .ok tuples' ↔
      (∀ r ∈ rels, validateRelationship r = .ok ()) ∧ fault = none ∧
        tuples' = rels.foldl touch tuples := by
  unfold writeRelationships
  rw [← forM_validate_ok]
  cases rels.forM validateRelationship with
  | error e => simp [bind, Except.bind]
  | ok _ => cases fault <;> simp [bind, Except.bind, eq_comm]

theorem deleteRelationships_eq_ok : deleteRelationships tuples f fault = .ok tuples' ↔
      f ≠ {} ∧ fault = none ∧ tuples' = tuples.filter fun r => !f.matches r := by
  unfold deleteRelationships validateFilter
  by_cases empty : f = {}
  · simp [empty, bind, Except.bind]
  · cases fault <;> simp [empty, bind, Except.bind, eq_comm]

theorem validateRelationship_ok {id}
    (typed : type ≠ "") (named : id ≠ "") (related : trimSpace relation ≠ "")
    (subjectType : subject.type ≠ "") (subjectID : subject.id ≠ "") :
    validateRelationship ⟨⟨type, id⟩, relation, subject⟩ = .ok () := by
  simp [validateRelationship, typed, named, related, subjectType, subjectID]

theorem revokeResource_clears
    (revoked : revokeResource tuples resource fault = .ok left) :
    ∀ r ∈ left, r.resource ≠ resource := by
  obtain ⟨_, _, rfl⟩ := deleteRelationships_eq_ok.mp revoked
  rintro r member rfl
  have kept := (List.mem_filter.mp member).2
  simp [AuthzRelationshipFilter.matches, fieldMatches] at kept

theorem revokeResource_accepts (tuples : Tuples) (id : String)
    (typed : type ≠ "") : ∃ left, revokeResource tuples ⟨type, id⟩ none = .ok left := by
  refine ⟨_, deleteRelationships_eq_ok.mpr ⟨?_, rfl, rfl⟩⟩
  intro empty
  exact typed (congrArg AuthzRelationshipFilter.resourceType empty)

theorem canonicalSubject_eq_ok
    (canonical : canonicalSubject principal = .ok subject) :
    subject.type ≠ "" ∧ subject.id ≠ "" := by
  simp only [canonicalSubject] at canonical
  split_ifs at canonical with untyped anonymous
  cases canonical
  exact ⟨untyped, anonymous⟩

theorem CheckAnswer.require_eq_ok {answer : CheckAnswer} :
    answer.require forbidden = .ok done ↔ answer = .allowed := by
  cases answer <;> simp [CheckAnswer.require]

end AisphereHub

/-! Errors of the usecases: the code of the sentinel and the text the call site
wraps around it. A sentinel returned bare has an empty detail. -/
namespace AisphereHub

inductive ErrorCode where
  | REVISION_CONFLICT
  | INVALID_ARGUMENT
  | UNSUPPORTED_PRINCIPAL_TYPE
  | FAILED_PRECONDITION
  | UNAUTHENTICATED
  | CLUSTER_NOT_FOUND
  | NAMESPACE_NOT_FOUND
  | KUBERNETES_CREDENTIAL_INVALID
  | PERMISSION_DENIED
  | AUTHZ_INVALID_REQUEST
  | AUTHZ_BACKEND_FAILED
  | SKILL_INVALID_ARGUMENT
  | SKILL_DEPENDENCY_FAILED
  | SKILL_NOT_FOUND
  | SKILL_ALREADY_EXISTS
  | SKILL_LIFECYCLE_INVALID
  | SKILL_LIFECYCLE_CONFLICT
  | SKILL_ARCHIVE_INVALID
  | SKILL_ARCHIVE_TOO_LARGE
  | SKILL_ARCHIVE_SKILL_MD_MISSING
  | SKILL_FILE_NOT_FOUND
  | SKILL_FILE_ALREADY_EXISTS
  | SKILL_FILE_PATH_INVALID
  | SKILL_BRANCH_NOT_FOUND
  | SKILL_GIT_OPERATION_FAILED
  | SKILL_RELEASE_ALREADY_EXISTS
  | SKILL_RELEASE_NOT_FOUND
  | SKILL_RELEASE_STALE
  | SKILL_RESTORE_STALE
  | PULL_REQUEST_NOT_FOUND
  | PULL_REQUEST_NOT_OPEN
  | PULL_REQUEST_STALE
  | PULL_REQUEST_NOT_APPROVED
  | PULL_REQUEST_REVIEW_EXISTS
  | AGENT_SKILL_REFERENCED
  | SANDBOX_TEMPLATE_NOT_FOUND
  | SANDBOX_NOT_FOUND
  | WARM_POOL_NOT_FOUND
  | SANDBOX_CLAIM_NOT_FOUND
  | TOOL_NOT_FOUND
  | TOOL_VERSION_CONFLICT
  | AGENT_TOOL_NOT_FOUND
  | AGENT_TOOL_DISABLED
  | AGENT_TOOL_EXECUTE_DENIED
  | AGENT_TOOL_VERSION_NOT_FOUND
  | AGENT_TOOL_DEFINITION_INVALID
  | AGENT_ALREADY_EXISTS
  | AGENT_INTERNAL
  | MODEL_PROFILE_NOT_FOUND
  | AGENT_PERMISSION_DENIED
  | AGENT_AUTHZ_UNAVAILABLE
  | AGENT_ZONE_REQUIRED
  | AGENT_INVALID_ID
  | AGENT_NOT_FOUND
  | AGENT_VERSION_NOT_FOUND
  | AGENT_DISABLED
  | AGENT_DEFINITION_INVALID
  | AGENT_TOOL_INVALID
  | AGENT_TOOL_DUPLICATE
  | AGENT_APPROVAL_MODE_INVALID
  | AGENT_SKILL_INVALID
  | AGENT_SKILL_DUPLICATE
  | AGENT_SKILL_VERSION_REQUIRED
  | AGENT_SKILL_VERSION_CONFLICT
  | AGENT_SKILL_RELEASE_UNAVAILABLE
  | AGENT_SKILLSET_FIELD_CONFLICT
  | AGENT_SKILLSET_INVALID
  | AGENT_SKILLSET_DUPLICATE
  | AGENT_SKILLSET_REVISION_REQUIRED
  | AGENT_SKILLSET_REVISION_STALE
  | AGENT_SKILLSET_REVISION_NOT_FOUND
  | AGENT_SKILLSET_REVISION_INCOMPLETE
  | AGENT_SKILLSET_NOT_FOUND
  | AGENT_SKILLSET_EMPTY
  | AGENT_MODEL_USE_DENIED
  | AGENT_MODEL_PROFILE_NOT_FOUND
  | AGENT_MODEL_PROFILE_DISABLED
  | AGENT_MODEL_REVISION_NOT_FOUND
  | AGENT_MODEL_SNAPSHOT_INVALID
  | AGENT_RUN_APPROVAL_REQUIRED
  | AGENT_REQUIRED_TOOL_DENIED
  | AGENT_RESOLVE_FAILED
  | SKILL_ARCHIVED
  | SKILL_DISABLED
  | SKILL_PACK_INVALID_REQUEST
  | SKILL_PACK_EXPIRED
  | SKILL_PACK_FORBIDDEN
  | SANDBOX_TOOL_EXECUTION_NOT_AVAILABLE
  | MODEL_MANAGEMENT_NOT_FOUND
  | MODEL_MANAGEMENT_CONFLICT
  | MODEL_MANAGEMENT_FORBIDDEN
  | MODEL_RESOURCE_IN_USE
  | MODEL_ENDPOINT_REQUIRED_FIELDS_MISSING
  | MODEL_ENDPOINT_API_FORMAT_INVALID
  | MODEL_ENDPOINT_DISABLED
  | MODEL_DISABLED
  | MODEL_PROFILE_CODE_INVALID
  | MODEL_PROFILE_REASONING_INVALID
  | MODEL_REASONING_MAPPING_INVALID
  | UNCLASSIFIED
deriving DecidableEq

structure HubError where
  code : ErrorCode
  detail : String := ""
deriving DecidableEq

/-- A plain Go error: a driver, constraint or transport failure. -/
def HubError.plain (detail : String) : HubError := ⟨.UNCLASSIFIED, detail⟩

variable {ε α : Type} {result : Except ε α}

theorem map_eq_ok {γ : Type} {f} {value : γ} (mapped : result.map f = .ok value)
    : ∃ x, result = .ok x ∧ f x = value := by
  cases result with
  | error e => cases mapped
  | ok x => exact ⟨x, rfl, Except.ok.inj mapped⟩

variable {β : Type}

theorem bind_eq_ok {b : β} : (result >>= f) = .ok b ↔ ∃ a, result = .ok a ∧ f a = .ok b := by
  cases result <;> simp [bind, Except.bind]

/-- What an insert returns that checks its row and its key first. -/
theorem inserted_eq_ok {existing : Option α}
    {rest : Except ε β} : (if accepted = false then .error refusal
      else if existing.isSome then .error duplicate else rest) = .ok b ↔
      accepted = true ∧ existing = none ∧ rest = .ok b := by
  cases accepted <;> cases existing <;> simp

theorem bind_eq_error {f : α → Except ε β} :
    (result >>= f) = .error e ↔ result = .error e ∨ ∃ a, result = .ok a ∧ f a = .error e := by
  cases result <;> simp [bind, Except.bind]

theorem exists_of_isOk (fine : result.isOk = true) : ∃ x, result = .ok x := by
  cases result with
  | error e => cases fine
  | ok x => exact ⟨x, rfl⟩

theorem exists_ok {P Q : α → Prop} (found : ∃ x, result = .ok x ∧ P x)
    (each : ∀ x, result = .ok x → P x → Q x) : ∃ x, result = .ok x ∧ Q x := by
  obtain ⟨x, returned, holds⟩ := found
  exact ⟨x, returned, each x returned holds⟩

theorem exists_ok_pair {result : Except ε (α × β)} {P Q : α → β → Prop}
    (found : ∃ x y, result = .ok (x, y) ∧ P x y) (each : ∀ x y, result = .ok (x, y) → P x y → Q x y)
    : ∃ x y, result = .ok (x, y) ∧ Q x y := by
  obtain ⟨x, y, returned, holds⟩ := found
  exact ⟨x, y, returned, each x y returned holds⟩

/-- What a computation returns can be checked by running it. -/
instance decidableExistsOk {ε α : Type} {p : α → Prop} [DecidablePred p] :
    (result : Except ε α) → Decidable (∃ x, result = .ok x ∧ p x)
  | .error _ => .isFalse (by simp)
  | .ok x => decidable_of_iff (p x) (by simp)

instance decidableExistsOkPair {ε α β : Type} {p : α → β → Prop} [∀ x y, Decidable (p x y)] :
    (result : Except ε (α × β)) → Decidable (∃ x y, result = .ok (x, y) ∧ p x y)
  | .error _ => .isFalse (by simp)
  | .ok (x, y) => decidable_of_iff (p x y) (by simp [and_assoc])

instance decidableExistsPairOk {σ ε α : Type} {p : σ → α → Prop} [∀ s x, Decidable (p s x)] :
    (result : σ × Except ε α) → Decidable (∃ s x, result = (s, .ok x) ∧ p s x)
  | (_, .error _) => .isFalse (by simp)
  | (s, .ok x) => decidable_of_iff (p s x) (by simp [and_assoc])

instance decidableIsOk {ε α : Type} : (result : Except ε α) → Decidable (∃ x, result = .ok x)
  | .error _ => .isFalse (by simp)
  | .ok x => .isTrue ⟨x, rfl⟩

end AisphereHub

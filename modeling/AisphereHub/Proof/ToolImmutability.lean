import AisphereHub.Proof.ToolWrites
import Mathlib.Algebra.Field.Rat

/-! Stored tool versions. No write changes one, but a write that names one is refused only
when the two documents are decoded to different values, and the decoder has no more than the
precision of `float64`. -/
namespace GoJson

def Decimal.value (n : Decimal) : ℚ := n.mantissa * 10 ^ n.exponent

def exactNumbers : Floats ℚ where
  read n := some n.value
  print q := toString q

/-- The same JSON value, numbers compared exactly: the order of members does not matter, and
of two members of one name the later one counts. -/
def SameValue (a b : Json Decimal) : Prop := unmarshal exactNumbers a = unmarshal exactNumbers b

instance decidableSameValue (a b : Json Decimal) : Decidable (SameValue a b) :=
  inferInstanceAs (Decidable (unmarshal exactNumbers a = unmarshal exactNumbers b))

end GoJson

namespace AisphereHub

open GoJson Transition
open GoStrings (trimSpace)

variable {φ : Type} [DecidableEq φ] {C : ToolCodec φ}

inductive StrictWrite where
  | create
  | update
deriving DecidableEq

def StrictWrite.tools (a : ToolAnswer) (c : ToolCatalog) (t : Tool) :
    StrictWrite → Except HubError (List ToolRow)
  | .create => ToolRepo.insertTool c.tools (toolBizToModel t a.now)
  | .update => ToolRepo.updateTool c.tools t a.now

def StrictWrite.call (C : ToolCodec φ) :
    StrictWrite → ToolAnswer → ToolCatalog → Tool → ToolCatalog × Except HubError StoredTool
  | .create => ToolRepo.create C
  | .update => ToolRepo.update C

theorem StrictWrite.call_eq (op : StrictWrite) (a : ToolAnswer) (c : ToolCatalog) (t : Tool) :
    op.call C a c t = ToolRepo.write C a c t .versionConflictStrict (op.tools a c t) := by
  cases op <;> rfl

/-- The version is new, or its document is the stored value. -/
def SameAsStored (rows : List ToolVersionRow) (toolID : String) (v : ToolVersion) : Prop :=
  ∀ existing, findToolVersion rows toolID v.version = some existing →
    ∀ json, v.definition.marshal = .ok json → SameValue existing.definitionJSON json

/-- A write succeeds only with the values that are stored under the versions it names. With
another one it fails and changes nothing. -/
def RespectsVersions (C : ToolCodec φ) (op : StrictWrite) (a : ToolAnswer) (c : ToolCatalog)
    (t : Tool) : Prop :=
  ((op.call C a c t).2.isOk = true → ∀ entry ∈ t.versions, SameAsStored c.versions t.id entry.2) ∧
    ∀ entry ∈ t.versions, ¬SameAsStored c.versions t.id entry.2 →
      (op.call C a c t).2.isOk = false ∧ (op.call C a c t).1 = c

/-- If each document that the tool submits is read like the one that is stored under its version,
each is the same value. -/
def ReadApart (C : ToolCodec φ) (c : ToolCatalog) (t : Tool) : Prop :=
  (∀ entry ∈ t.versions, Adoptable C c.versions t.id entry.2) →
    ∀ entry ∈ t.versions, SameAsStored c.versions t.id entry.2

/-- Nothing but the stored versions stands against the write. -/
structure InOrder (C : ToolCodec φ) (op : StrictWrite) (a : ToolAnswer) (c : ToolCatalog)
    (t : Tool) : Prop where
  works : a.fault = none
  reads : a.readFault = none
  versions : ∀ entry ∈ t.versions, ∃ row, Writable C a.now t.id entry.2 row
  labels : (t.versions.map fun entry => entry.2.version).Nodup
  row : ∃ rows, op.tools a c t = .ok rows ∧ (liveTool rows (trimSpace t.id)).isSome = true

theorem ReadApart.respects (apart : ReadApart C c t) (op : StrictWrite) (a : ToolAnswer) :
    RespectsVersions C op a c t := by
  rw [RespectsVersions, op.call_eq]
  obtain ⟨e, failed⟩ | ⟨_, versions, _, _, written, _⟩ :=
    write_cases (C := C) a c t .versionConflictStrict (op.tools a c t)
  · rw [failed]
    exact ⟨fun fine => (nomatch fine), fun _ _ _ => ⟨rfl, rfl⟩⟩
  · have same := apart (adoptable_of_foldlM written)
    exact ⟨fun _ => same, fun entry member differ => absurd (same entry member) differ⟩

theorem RespectsVersions.apart (respects : RespectsVersions C op a c t)
    (order : InOrder C op a c t) : ReadApart C c t := by
  intro adoptable
  obtain ⟨rows, made, live⟩ := order.row
  apply respects.1
  rw [op.call_eq]
  exact (write_ok_iff order.works order.reads order.versions order.labels made live).mpr adoptable

/-- Stored versions stay as they are in every sequence of writes; and a write respects them if the
decoder reads the documents apart, and, if the write is in order, only then. -/
theorem tool_versions_immutable (C : ToolCodec φ) (c : ToolCatalog) :
    (∀ later d, run (toolStep C) c later = some d → KeepsDefinitions c.versions d.versions) ∧
    ∀ op a t, (ReadApart C c t → RespectsVersions C op a c t) ∧
      (InOrder C op a c t → (RespectsVersions C op a c t ↔ ReadApart C c t)) :=
  ⟨fun _ _ later => toolRun_keeps later, fun op a _ => ⟨fun apart => apart.respects op a,
    fun order => ⟨fun respects => respects.apart order, fun apart => apart.respects op a⟩⟩⟩

def numberDefinition (n : Decimal) : ToolDefinition where
  runtime := { type := "mcp" }
  metadata := .value (.num n)

def numberTool (displayName : String) (n : Decimal) : Tool where
  id := "gauge"
  displayName := displayName
  status := "active"
  scope := "project"
  latestVersion := "v1"
  versions := [("v1", { version := "v1", revision := "r1", sha256 := "d1"
                        definition := numberDefinition n })]

def numberMembers : List (String × Json Decimal) :=
  match (numberDefinition ⟨0, 0⟩).marshal with
  | .ok (.obj members) => members.dropLast
  | _ => []

def numberDocument (n : Decimal) : Json Decimal := .obj (numberMembers ++ [("Metadata", .num n)])

/-- The nearest number with a significand of 53 bits, the even one of two; `2 ^ 3` stands for the
last place of the subnormal numbers. -/
def roundSignificand (n : Nat) : Nat :=
  let unit := 2 ^ max (n.log2 - 52) 3
  let rest := n % unit
  (n / unit + if 2 * rest < unit ∨ 2 * rest = unit ∧ n / unit % 2 = 0 then 0 else 1) * unit

/-- The `float64` nearest to a number, in units of `2 ^ (-1077)`; what the division leaves is kept
in the last bit, below every tie. -/
def readFloat64 (n : Decimal) : Option Int :=
  let scaled := n.mantissa.natAbs * 10 ^ n.exponent.toNat * 2 ^ 1076
  let divisor := 10 ^ (-n.exponent).toNat
  let x := roundSignificand (scaled / divisor * 2 + if scaled % divisor = 0 then 0 else 1)
  if x < 2 ^ 2101 then some (n.mantissa.sign * x) else none

def float64Codec : ToolCodec Int where
  floats := { read := readFloat64, print := fun n => toString n }
  sha256Hex _ := "0123456789abcdef"

example : readFloat64 ⟨1, -1⟩ = readFloat64 ⟨1000000000000000055511151231257827, -34⟩ := by
  decide +kernel

theorem other_version_refused :
    ∃ c, run (toolStep float64Codec) {}
        [(.create (numberTool "" ⟨9007199254740992, 0⟩), {})] = some c ∧
      (∃ row, findToolVersion c.versions "gauge" "v1" = some row ∧
        row.definitionJSON = numberDocument ⟨9007199254740992, 0⟩) ∧
      (ToolRepo.update float64Codec {} c (numberTool "renamed" ⟨9007199254740994, 0⟩)).1 = c := by
  refine exists_run (P := fun c => ∃ row, findToolVersion c.versions "gauge" "v1" = some row ∧
    row.definitionJSON = numberDocument ⟨9007199254740992, 0⟩) (by decide +kernel)
    fun c _ stored => ⟨stored, ?_⟩
  obtain ⟨row, found, document⟩ := stored
  have differ : ¬SameAsStored c.versions "gauge"
      { version := "v1", revision := "r1", sha256 := "d1"
        definition := numberDefinition ⟨9007199254740994, 0⟩ } := by
    intro same
    have value := same row found (numberDocument ⟨9007199254740994, 0⟩) rfl
    rw [document] at value
    exact absurd value (by decide +kernel)
  have apart : ReadApart float64Codec c (numberTool "renamed" ⟨9007199254740994, 0⟩) := by
    intro adoptable
    have alike := adoptable _ List.mem_cons_self row found (numberDocument ⟨9007199254740994, 0⟩) rfl
    rw [document] at alike
    exact absurd alike (by decide +kernel)
  exact ((((tool_versions_immutable float64Codec c).2 .update {} _).1 apart).2 _
    List.mem_cons_self differ).2

/-- An update that names a stored version with another number goes through. -/
theorem rounded_version_accepted :
    ∃ c, run (toolStep float64Codec) {}
        [(.create (numberTool "" ⟨9007199254740992, 0⟩), {})] = some c ∧
      (∃ row, findToolVersion c.versions "gauge" "v1" = some row ∧
        row.definitionJSON = numberDocument ⟨9007199254740992, 0⟩) ∧
      (ToolRepo.update float64Codec {} c (numberTool "renamed" ⟨9007199254740993, 0⟩)).2.isOk = true ∧
      (ToolRepo.update float64Codec {} c (numberTool "renamed" ⟨9007199254740993, 0⟩)).1.tools ≠
        c.tools ∧
      ¬SameValue (numberDocument ⟨9007199254740992, 0⟩) (numberDocument ⟨9007199254740993, 0⟩) := by
  decide +kernel

end AisphereHub

import AisphereHub.Biz.Error
import AisphereHub.Foundation.GoPath
import AisphereHub.Foundation.GoSort
import AisphereHub.Foundation.Keyed
import AisphereHub.Foundation.PathMap

/-! Git trees and the edits `file.go` makes on them. The object store is content
addressed and does not collide, so an object stands for its hash: a tree is the
list of its entries, and an entry holds the object it names. `Tree.Encode` is
go-git's and may refuse a list of entries. -/
namespace AisphereHub

open GoStrings (split join trim)

/-- The modes of `filemode` other than `Dir`. -/
inductive FileMode where
  | Regular
  | Deprecated
  | Executable
  | Symlink
  | Submodule
deriving DecidableEq

inductive GitNode (β : Type) where
  | file (mode : FileMode) (blob : β)
  | dir (entries : List (String × GitNode β))

abbrev GitTree (β : Type) := List (String × GitNode β)

variable {β : Type}

def GitNode.isDir : GitNode β → Bool
  | .file _ _ => false
  | .dir _ => true

def errGit (cause : String) : HubError := ⟨.SKILL_GIT_OPERATION_FAILED, cause⟩

def errFileNotFound (p : String) : HubError := ⟨.SKILL_FILE_NOT_FOUND, "file not found: " ++ p⟩

def errBranchNotFound (ref : String) : HubError := ⟨.SKILL_BRANCH_NOT_FOUND, "ref not found: " ++ ref⟩

def errFileExists (p : String) : HubError :=
  ⟨.SKILL_FILE_ALREADY_EXISTS, "file already exists: " ++ p⟩

def errPathInvalid (p : String) : HubError := ⟨.SKILL_FILE_PATH_INVALID, "invalid path: " ++ p⟩

def splitPath (p : String) : List String :=
  (split (trim p '/') '/').filter (· ≠ "")

def joinPath (parts : List String) : String := join parts '/'

/-- Directories sort as if their name ended in a slash. -/
def treeEntryLess (a b : String × GitNode β) : Bool :=
  let an := if a.2.isDir then a.1 ++ "/" else a.1
  let bn := if b.2.isDir then b.1 ++ "/" else b.1
  decide (an < bn)

def sortTreeEntries (entries : GitTree β) : GitTree β :=
  GoSort.sliceStable treeEntryLess entries

def findEntryInSlice (entries : GitTree β) (name : String) : Option (GitNode β) :=
  (Keyed.lookup Prod.fst entries name).map Prod.snd

def replaceOrAppend (entries : GitTree β) (neu : String × GitNode β) : GitTree β :=
  sortTreeEntries <|
    if (Keyed.lookup Prod.fst entries neu.1).isSome then
      Keyed.amend Prod.fst entries neu.1 fun _ => neu
    else entries ++ [neu]

def removeEntryByName (entries : GitTree β) (name : String) : GitTree β :=
  Keyed.remove Prod.fst entries name

/-- `refuses` is the error of `Tree.Encode`, if it has one. -/
def storeTree (refuses : GitTree β → Option String) (entries : GitTree β) :
    Except HubError (GitTree β) :=
  match refuses entries with
  | some cause => .error (.plain cause)
  | none => .ok entries

/-- The subtree a new path goes through: what stands there, if it is a directory,
and an empty tree in the place of anything else. -/
def childTree (tree : GitTree β) (name : String) : GitTree β :=
  match findEntryInSlice tree name with
  | some (.dir entries) => entries
  | _ => []

def upsertEntry (refuses : GitTree β → Option String) (tree : GitTree β) (parts : List String)
    (leaf : GitNode β) : Except HubError (GitTree β) :=
  match parts with
  | [] => .error (.plain "index out of range")
  | [name] => storeTree refuses (replaceOrAppend tree (name, leaf))
  | name :: next :: rest =>
    match upsertEntry refuses (childTree tree name) (next :: rest) leaf with
    | .error e => .error e
    | .ok child => storeTree refuses (replaceOrAppend tree (name, .dir child))

def upsertFileInTree (refuses : GitTree β → Option String) (root : GitTree β) (filePath : String)
    (blob : β) (mode : FileMode) : Except HubError (GitTree β) :=
  upsertEntry refuses root (splitPath filePath) (.file mode blob)

/-- A directory that became empty is pruned. -/
def removeEntry (refuses : GitTree β → Option String) (tree : GitTree β) (parts : List String) :
    Except HubError (GitTree β) :=
  match parts with
  | [] => .error (.plain "index out of range")
  | [name] => storeTree refuses (removeEntryByName tree name)
  | name :: next :: rest =>
    match findEntryInSlice tree name with
    | some (.dir entries) =>
      match removeEntry refuses entries (next :: rest) with
      | .error e => .error e
      | .ok [] => storeTree refuses (removeEntryByName tree name)
      | .ok (first :: others) =>
        storeTree refuses (replaceOrAppend tree (name, .dir (first :: others)))
    | _ => .error (errFileNotFound (joinPath parts))

def removeFileFromTree (refuses : GitTree β → Option String) (root : GitTree β)
    (filePath : String) : Except HubError (GitTree β) :=
  removeEntry refuses root (splitPath filePath)

def nodeAt (tree : GitTree β) : List String → Option (GitNode β)
  | [] => none
  | [name] => findEntryInSlice tree name
  | name :: next :: rest =>
    match findEntryInSlice tree name with
    | some (.dir entries) => nodeAt entries (next :: rest)
    | _ => none

/-- `Tree.FindEntry` splits its argument at every slash. -/
def findEntry (tree : GitTree β) (filePath : String) : Option (GitNode β) :=
  nodeAt tree (split filePath '/')

/-- The files of a tree by path: everything that is not a directory. -/
def fileAt (tree : GitTree β) (path : List String) : Option (FileMode × β) :=
  match nodeAt tree path with
  | some (.file mode blob) => some (mode, blob)
  | _ => none

mutual

def GitNode.files : GitNode β → List (List String × FileMode × β)
  | .file mode blob => [([], mode, blob)]
  | .dir entries => treeFiles entries

def treeFiles : List (String × GitNode β) → List (List String × FileMode × β)
  | [] => []
  | (name, node) :: rest => node.files.map (fun file => (name :: file.1, file.2)) ++ treeFiles rest

end

/-- Names are unique in each directory, and name an entry of it. -/
inductive WellFormed : GitTree β → Prop where
  | mk (tree : GitTree β) (unique : (tree.map Prod.fst).Nodup)
      (named : ∀ entry ∈ tree, entry.1 ≠ "" ∧ '/' ∉ entry.1.toList)
      (below : ∀ name entries, (name, .dir entries) ∈ tree → WellFormed entries) :
      WellFormed tree

end AisphereHub

import AisphereHub.Biz.SkillArchive
import AisphereHub.Gitengine.Repository

/-! `BuildSkillPackage`: the files of a commit as a zip, sorted by name, with the
packer's own check of each name. -/
namespace AisphereHub

open GoStrings

variable {β δ : Type}

structure SkillPackageData (δ : Type) where
  sha256 : String
  md5 : String
  size : Nat
  zip : δ

/-- Submodules are not listed. -/
def packNames (tree : GitTree β) : List String :=
  GoSort.sliceStable (fun x y => decide (x < y))
    (((treeFiles tree).filter fun file => file.2.1 ≠ .Submodule).map fun file => joinPath file.1)

def packSkips (name : String) : Bool :=
  GoPath.clean name == "." || hasPrefix (GoPath.clean name) "/" || contains (GoPath.clean name) ".."

def packFiles (tree : GitTree β) : List String → Except HubError (List (String × Bool × β))
  | [] => .ok []
  | name :: rest =>
    if packSkips name then packFiles tree rest
    else
      match findEntry tree name with
      | some (.file mode blob) =>
        match packFiles tree rest with
        | .error e => .error e
        | .ok files => .ok ((name, mode == .Symlink, blob) :: files)
      | _ => .error (errGit "file not found")

/-- `git rev-parse` resolves the ref; its output is a full hash. -/
def buildSkillPackage (P : Plumbing β) (Z : ZipFormat P.toContent δ) (a : EngineAnswer β)
    (ref : String) : Except HubError (SkillPackageData δ) :=
  match a.check .open errGit with
  | .error e => .error e
  | .ok _ =>
    let ref := if ref = "" then "HEAD" else ref
    match a.check .revParse fun cause =>
        .plain ("gitengine: resolve " ++ ref ++ ": " ++ cause), a.revParse (ref ++ "^\x7bcommit\x7d") with
    | .error e, _ => .error e
    | .ok _, none => .error (.plain ("gitengine: resolve " ++ ref ++ ": unknown revision"))
    | .ok _, some commit =>
      match a.check .plainOpen errGit with
      | .error e => .error e
      | .ok _ =>
        match packFiles commit.tree (packNames commit.tree) with
        | .error e => .error e
        | .ok files =>
          match Z.write files with
          | .error cause => .error (errGit cause)
          | .ok zip => .ok ⟨Z.sha256 zip, Z.md5 zip, Z.length zip, zip⟩

end AisphereHub

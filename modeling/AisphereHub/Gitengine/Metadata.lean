import AisphereHub.Foundation.GoStrings

/-! The front matter of `SKILL.md`. `ParseSkillMetadata` of the engine reads it
against a repository name, `ParseSkillMetadataDocument` of the archive import
takes the name from it. The YAML decoder is a parameter. -/
namespace AisphereHub

open GoStrings

structure FrontMatter where
  name : String := ""
  displayName : String := ""
  title : String := ""
  description : String := ""
deriving DecidableEq

/-- `yaml.Unmarshal` into the front matter struct. -/
abbrev Yaml := String → Except String FrontMatter

/-- What the code does with the bytes of a file: it converts them from and to Go
strings, counts them, and decodes YAML. -/
structure Content (β : Type) where
  text : β → String
  bytes : String → β
  len : β → Nat
  yaml : Yaml
  text_bytes : ∀ content, text (bytes content) = content

/-- `strings.ReplaceAll(content, "\r\n", "\n")`. -/
def unixLines : List Char → List Char
  | [] => []
  | '\r' :: '\n' :: rest => '\n' :: unixLines rest
  | c :: rest => c :: unixLines rest

def contentLines (content : String) : List String :=
  split (String.ofList (unixLines (trimPrefix content "\ufeff").toList)) '\n'

def isFence (line : String) : Bool := trimSpace line == "---"

def frontMatterLines : List String → Except String (List String × List String)
  | [] => .error "SKILL.md must start with YAML front-matter"
  | first :: rest =>
    if !isFence first then .error "SKILL.md must start with YAML front-matter"
    else
      match rest.dropWhile (!isFence ·) with
      | [] => .error "SKILL.md front-matter is not closed"
      | _ :: body => .ok (rest.takeWhile (!isFence ·), body)

def headingTitle : List String → String
  | [] => ""
  | line :: rest =>
    if hasPrefix (trimSpace line) "# " then trimSpace (trimPrefix (trimSpace line) "# ")
    else headingTitle rest

def FrontMatter.shownName (fm : FrontMatter) (body : List String) (fallback : String) : String :=
  let named := if trimSpace fm.displayName = "" then trimSpace fm.title else trimSpace fm.displayName
  let titled := if named = "" then headingTitle body else named
  if titled = "" then fallback else titled

def decodeFrontMatter (yaml : Yaml) (content : String) :
    Except String (FrontMatter × List String) :=
  match frontMatterLines (contentLines content) with
  | .error e => .error e
  | .ok (lines, body) =>
    match yaml (join lines '\n') with
    | .error cause => .error ("parse SKILL.md front-matter: " ++ cause)
    | .ok fm => .ok (fm, body)

def parseSkillMetadata (yaml : Yaml) (repositoryName content : String) :
    Except String (String × String) :=
  let repositoryName := trimSpace repositoryName
  match decodeFrontMatter yaml content with
  | .error e => .error e
  | .ok (fm, body) =>
    if trimSpace fm.name = "" ∨ trimSpace fm.name ≠ repositoryName then
      .error ("SKILL.md name \"" ++ fm.name ++ "\" must match repository name \""
        ++ repositoryName ++ "\"")
    else .ok (fm.shownName body repositoryName, trimSpace fm.description)

def parseSkillMetadataDocument (yaml : Yaml) (content : String) :
    Except String (String × String × String) :=
  match decodeFrontMatter yaml content with
  | .error e => .error e
  | .ok (fm, body) =>
    if trimSpace fm.name = "" then .error "SKILL.md name is required"
    else .ok (trimSpace fm.name, fm.shownName body (trimSpace fm.name), trimSpace fm.description)

end AisphereHub

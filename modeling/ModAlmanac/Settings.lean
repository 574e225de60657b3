import ModAlmanac.Number.Numeral
import ModAlmanac.Text.Lowercase
import ModAlmanac.Text.Scan
import ModAlmanac.Value

/-!
Settings. They have defaults, and some are read from variables: truth values from a few words in
letters of either case, integers, and lists of texts between commas.
-/

namespace ModAlmanac

open Text

/-! ## Variables -/

def yesWords : List String := ["1", "true", "t", "yes", "y", "on"]

/-- The truth value that a text writes. Whatever does not mean yes means no. -/
def boolOfText (s : List Char) : Bool :=
  yesWords.contains (String.ofList (lower (trim s)))

/-- A text that should write an integer writes none. -/
inductive VariableError where
  | notAnInteger
  deriving Repr, DecidableEq

def integerOfText (s : List Char) : Except VariableError Int :=
  match Number.intOfText? (trim s) with
  | some n => .ok n
  | none => .error .notAnInteger

/-- The texts between the commas of a text, trimmed; empty ones do not count. -/
def listOfText (s : List Char) : List String :=
  (((partsAt ',' s).map trim).filter (!·.isEmpty)).map String.ofList

/-- The kinds of variables. -/
inductive VariableKind where
  | bool
  | integer
  | list
  deriving Repr, DecidableEq

/-- The value of a variable, or a default when it is not set. -/
def readVariable (kind : VariableKind) (default : Value) :
    Option String → Except VariableError Value
  | none => .ok default
  | some s =>
    match kind with
    | .bool => .ok (.bool (boolOfText s.toList))
    | .integer => (integerOfText s.toList).map .int
    | .list => .ok (.list ((listOfText s.toList).map .text))

/-! ## Values -/

/-- The settings that the almanac depends on. A backup is made only if its owner, repository and
token are all set. -/
structure Settings where
  apiUrl : String
  rawUrl : String
  fetchToken : String
  timeout : Value
  userAgent : String
  dataUrl : String
  backupOwner : String
  backupRepo : String
  backupToken : String
  backupBranch : String
  deriving Inhabited

def Settings.standard : Settings :=
  { apiUrl := "https://api.github.com"
    rawUrl := "https://raw.githubusercontent.com"
    fetchToken := ""
    timeout := .int 30
    userAgent := "modwiki (wiki data fetch)"
    dataUrl := "/wiki-data/"
    backupOwner := ""
    backupRepo := ""
    backupToken := ""
    backupBranch := "main" }

def Settings.variables : List String :=
  ["GITHUB_API_URL", "GITHUB_RAW_URL", "GITHUB_FETCH_TOKEN", "GITHUB_HTTP_TIMEOUT",
    "WIKI_BACKUP_OWNER", "WIKI_BACKUP_REPO", "WIKI_BACKUP_TOKEN", "WIKI_BACKUP_BRANCH"]

def Settings.read (lookup : String → Option String) : Except VariableError Settings := do
  let timeout ← readVariable .integer Settings.standard.timeout (lookup "GITHUB_HTTP_TIMEOUT")
  pure
    { Settings.standard with
      apiUrl := (lookup "GITHUB_API_URL").getD Settings.standard.apiUrl
      rawUrl := (lookup "GITHUB_RAW_URL").getD Settings.standard.rawUrl
      fetchToken := (lookup "GITHUB_FETCH_TOKEN").getD Settings.standard.fetchToken
      timeout
      backupOwner := (lookup "WIKI_BACKUP_OWNER").getD Settings.standard.backupOwner
      backupRepo := (lookup "WIKI_BACKUP_REPO").getD Settings.standard.backupRepo
      backupToken := (lookup "WIKI_BACKUP_TOKEN").getD Settings.standard.backupToken
      backupBranch := (lookup "WIKI_BACKUP_BRANCH").getD Settings.standard.backupBranch }

end ModAlmanac

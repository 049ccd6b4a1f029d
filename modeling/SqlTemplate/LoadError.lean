import SqlTemplate.Fault

/-!
# Faults of loading

A configuration cannot be loaded when a document is not well formed, ends too early, cannot be
read, or has no meaning.  A location is a file or, for a document from memory, a fixed name; for a
fault in a tag it is the name of the tag.
-/

namespace SqlTemplate

set_option autoImplicit false

/-- Why a file cannot be read. -/
inductive FileFault where
  | notFound
  | isADirectory
  | notADirectory
  deriving Repr, DecidableEq

/-- Why a file cannot be read, in words. -/
def FileFault.detail : FileFault → String
  | notFound => "not found"
  | isADirectory => "is a directory"
  | notADirectory => "not a directory"

/-- Why a configuration cannot be loaded. -/
inductive LoadError where
  | malformed (location : String)
  | truncated (location : String) (inside : Option String)
  | unreadable (path : String) (cause : FileFault)
  | config (cause : ConfigFault)
  deriving Repr, DecidableEq

/-- The text shown for a configuration that cannot be loaded. -/
def LoadError.message : LoadError → String
  | malformed location => "malformed mapper xml in " ++ location
  | truncated location none =>
      "malformed mapper xml in " ++ location ++ ": unexpected end of document"
  | truncated location (some tag) =>
      "malformed mapper xml in " ++ location ++ ": unexpected end of document inside <" ++ tag
        ++ ">"
  | unreadable path cause =>
      "unable to read mapper resource " ++ path ++ ": " ++ cause.detail
  | config cause => cause.message

end SqlTemplate

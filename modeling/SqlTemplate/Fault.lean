/-!
# Faults of a configuration

A configuration is faulty when its documents are well formed but say something that has no meaning:
an element in the wrong place, an attribute that is missing, an identifier given twice, a reference
to nothing.  Each constructor is one such cause.
-/

namespace SqlTemplate

set_option autoImplicit false

/-- Why a configuration has no meaning. -/
inductive ConfigFault where
  | emptyPlaceholder (text : String)
  | missingAttribute (tag name : String)
  | notAMapper (location found : String)
  | noMapper (location : String)
  | duplicateStatement (key : String)
  | duplicateFragment (key : String)
  | unsupportedElement (name namespaceName : String)
  | unsupportedTag (location name : String)
  | branchOutsideChoice (location name : String)
  | textInChoice (location : String)
  | secondOtherwise (location : String)
  | notABranch (location name : String)
  | unknownFragment (location reference namespaceName : String)
  | includeTooDeep (location reference : String) (depth : Nat)
  | notExpanded (reference : String)
  | includedTwice (path : String)
  | unsupportedRoot (location root : String)
  | missingResource (location : String)
  | emptyDocument (location : String)
  deriving Repr, DecidableEq

namespace ConfigFault

/-- What is wrong, in words. -/
def detail : ConfigFault → String
  | emptyPlaceholder text => "empty #\x7b\x7d placeholder in `" ++ text ++ "`"
  | missingAttribute tag name =>
      "<" ++ tag ++ "> requires a non-empty `" ++ name ++ "` attribute"
  | notAMapper location found =>
      location ++ ": expected a <mapper> root element, found <" ++ found ++ ">"
  | noMapper location => location ++ ": document has no <mapper> element"
  | duplicateStatement key => "duplicate statement id " ++ key
  | duplicateFragment key => "duplicate <sql> fragment " ++ key
  | unsupportedElement name namespaceName =>
      "unsupported element <" ++ name ++ "> in mapper " ++ namespaceName
  | unsupportedTag location name => location ++ ": unsupported dynamic tag <" ++ name ++ ">"
  | branchOutsideChoice location name =>
      location ++ ": <" ++ name ++ "> is only allowed inside <choose>"
  | textInChoice location => location ++ ": <choose> may only contain <when> and <otherwise>"
  | secondOtherwise location => location ++ ": <choose> has more than one <otherwise>"
  | notABranch location name => location ++ ": <" ++ name ++ "> is not allowed inside <choose>"
  | unknownFragment location reference namespaceName =>
      location ++ ": unknown <sql> fragment `" ++ reference ++ "` in mapper " ++ namespaceName
  | includeTooDeep location reference depth =>
      location ++ ": <include refid=\"" ++ reference ++ "\"> nests deeper than " ++ toString depth
        ++ " levels"
  | notExpanded reference => "<include refid=\"" ++ reference ++ "\"> was not expanded"
  | includedTwice path => path ++ " is included more than once"
  | unsupportedRoot location root => location ++ ": unsupported root element <" ++ root ++ ">"
  | missingResource location =>
      location ++ ": <mapper> entries need a `resource` attribute"
  | emptyDocument location => location ++ ": empty document"

/-- The text shown for a faulty configuration. -/
def message (fault : ConfigFault) : String := "mapper configuration error: " ++ fault.detail

end ConfigFault

end SqlTemplate

/-
Problems in a template, as causes with the tag that they arise in, and the diagnostic that a page
shows in place of the tag.

Main statement: `no_brace_diagnostic`, a diagnostic holds no brace.
-/
import Tender.Text.Markup
import Tender.Text.Quoted

namespace Tender

/-- What is wrong with a tag or a page. -/
inductive Problem.Cause where
  | unexpectedCharacter
  | endOfExpression
  | unexpected (lexeme : Text)
  | missingHelper (name : Option Text)
  | positionalAfterOption
  | numberOutOfRange (numeral : Text)
  | emptyPath
  | invalidPath (path : Text)
  | unsupportedDataPath (path : Text)
  | emptyExpression
  | blockArity
  | unknownBlock (name : Text)
  | blockParameters
  | unsupportedTag
  | elseOutside
  | duplicateElse
  | unexpectedClose
  | mismatchedClose (opened : Text)
  | unclosedBlock
  | tooDeep (limit : Nat)
  /-- A tag without its end, with the start of the text from it on. -/
  | unclosedTag (near : Text)
  | tooManyTags (limit : Nat)
  | helperFailed (name reason : Text)
  | pageTooLong (length limit : Nat)
  | tooManyPages (count limit : Nat)

/-- A problem and the tag that it arises in, if there is one. -/
structure Problem where
  cause : Problem.Cause
  token : Option Text

namespace Problem

/-- Whether a limit was exceeded. -/
def isLimit (p : Problem) : Bool :=
  match p.cause with
  | .tooDeep _ => true
  | .tooManyTags _ => true
  | .pageTooLong _ _ => true
  | .tooManyPages _ _ => true
  | _ => false

/-- The wording of a problem. -/
def message (p : Problem) : Text :=
  let token := p.token.getD []
  let inTag (s : Text) : Text := s ++ lit " in " ++ token
  match p.cause with
  | .unexpectedCharacter => inTag (lit "Unexpected character")
  | .endOfExpression => inTag (lit "Unexpected end of expression")
  | .unexpected s => inTag (lit "Unexpected " ++ Text.quoted s)
  | .missingHelper (some n) => inTag (lit "Missing helper: " ++ Text.quoted n)
  | .missingHelper none => inTag (lit "Missing helper: None")
  | .positionalAfterOption => inTag (lit "Positional argument after hash argument")
  | .numberOutOfRange s => inTag (lit "Number out of range " ++ Text.quoted s)
  | .emptyPath => inTag (lit "Empty path")
  | .invalidPath s => inTag (lit "Invalid path " ++ Text.quoted s)
  | .unsupportedDataPath s => inTag (lit "Unsupported data path @" ++ s)
  | .emptyExpression => lit "Empty expression " ++ token
  | .blockArity => inTag (lit "Block helpers take exactly one argument")
  | .unknownBlock n => inTag (lit "Unknown block helper " ++ Text.quoted n)
  | .blockParameters => inTag (lit "Block parameters are not supported")
  | .unsupportedTag => lit "Unsupported tag " ++ token
  | .elseOutside => token ++ lit " outside of a block"
  | .duplicateElse => lit "Duplicate " ++ token
  | .unexpectedClose => lit "Unexpected closing tag " ++ token
  | .mismatchedClose opened => token ++ lit " does not match " ++ opened
  | .unclosedBlock => lit "Unclosed block " ++ token
  | .tooDeep limit => lit "Block nesting deeper than " ++ Text.ofNat limit ++ lit " at " ++ token
  | .unclosedTag near => lit "Unclosed mustache near " ++ near
  | .tooManyTags limit => lit "Token limit of " ++ Text.ofNat limit ++
      lit " exceeded; the rest of the page is not interpreted"
  | .helperFailed name reason => lit "Helper " ++ Text.quoted name ++ lit " failed: " ++ reason
  | .pageTooLong length limit => lit "Template section of " ++ Text.ofNat length ++
      lit " characters exceeds the " ++ Text.ofNat limit ++ lit " character limit"
  | .tooManyPages count limit => lit "Document has " ++ Text.ofNat count ++
      lit " pages; only the first " ++ Text.ofNat limit ++ lit " are rendered"

/-- The start of every diagnostic. -/
def diagnosticHead : Text :=
  lit "<div class=\"template-error\" style=\"color: #b91c1c; padding: 8px; border: 1px solid #fca5a5; border-radius: 4px; background: #fef2f2;\"><strong>Error Rendering Section:</strong><br/>"

/-- The end of every diagnostic. -/
def diagnosticTail : Text := lit "</div>"

/-- What a page shows in place of a tag with a problem. -/
def diagnostic (p : Problem) : Text :=
  diagnosticHead ++ Text.safe p.message ++ diagnosticTail

theorem no_brace_diagnostic {p : Problem} {c : Char} (h : c ∈ p.diagnostic) :
    c ≠ '{' ∧ c ≠ '}' := by
  have hframe : Text.hasNoBrace diagnosticHead = true ∧ Text.hasNoBrace diagnosticTail = true := by
    rw [diagnosticHead, diagnosticTail, lit_ofList, lit_ofList]
    decide
  rw [diagnostic, List.mem_append, List.mem_append] at h
  rcases h with (h | h) | h
  · exact Text.ne_brace_of_hasNoBrace hframe.1 h
  · exact Text.no_brace_encodeBraces h
  · exact Text.ne_brace_of_hasNoBrace hframe.2 h

end Problem
end Tender

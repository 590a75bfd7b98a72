import CallAtlas.ContentHash
import CallAtlas.Failure
import CallAtlas.Script.Fault
import CallAtlas.Script.ParsedFile
import CallAtlas.Script.Reader
import CallAtlas.Text.Quoted

/-!
# From text to parsed files

A text is read with the grammar of its language. Strict reading refuses a text
with faults.
-/

namespace CallAtlas.Script.ParsedFile

/-- Reads a text in a given language. -/
def ofText (strict : Bool) (path group : String) (language : Language) (text : String) :
    Except ReadFailure ParsedFile :=
  let tree := read language text
  if strict && tree.hasFault then .error (.brokenText path (max tree.faultCount 1))
  else .ok { path, group, language, source := text, tree, contentHash := ContentHash.ofText text }

/-- Reads a text in the language that its path stands for. -/
def ofPath (strict : Bool) (path group text : String) : Except ReadFailure ParsedFile :=
  match Language.ofPath? path with
  | some language => ofText strict path group language text
  | none => .error (.unsupportedExtension ((Path.extension? path).getD ""))

/-- The hash of the text in sixteen hexadecimal digits. -/
def hashText (file : ParsedFile) : String := ContentHash.hex file.contentHash

/-- The file in one line, without its text and tree. -/
def description (file : ParsedFile) : String :=
  "ParsedFile \x7b relative_path: " ++ Text.quoted file.path ++
    ", group: " ++ Text.quoted file.group ++
    ", language: " ++ file.language.title ++
    ", content_hash: " ++ Text.quoted file.hashText ++ ", .. \x7d"

end CallAtlas.Script.ParsedFile

import Mathlib
import CallAtlas.Proofs.Analysis
import CallAtlas.Proofs.Text.Utf8

/-!
# What a content hash is the hash of

The hash of a file is taken of the text that its bytes were read as. For well-formed bytes
this is the hash of the bytes. In other bytes every broken run has become a replacement
character by then, so the hash is that of other bytes.
-/

namespace CallAtlas

open Script (ParsedFile)

/-- The content hash of a file whose bytes were read. -/
structure HashesText (bytes : ByteArray) (parsed : ParsedFile) : Prop where
  /-- What is hashed are the bytes with their broken runs replaced. -/
  contentHash_eq : ∃ units, Text.Cuts bytes.toList units ∧
    parsed.contentHash = ContentHash.hash (Text.mended units).toByteArray ∧
    ((Text.mended units).toByteArray = bytes ↔ bytes.IsValidUTF8)
  contentHash_of_isValidUTF8 : bytes.IsValidUTF8 → parsed.contentHash = ContentHash.hash bytes
  /-- The record of the file has the hash in hexadecimal digits. -/
  record_eq : (FileRecord.ofParsed parsed).contentHash = ContentHash.hex parsed.contentHash

theorem hashesText_of_eq {bytes : ByteArray} {parsed : ParsedFile}
    (h : parsed.contentHash = ContentHash.ofText (Text.decodeLossy bytes)) :
    HashesText bytes parsed where
  contentHash_eq := by
    refine ⟨_, Text.cuts_iff.mpr rfl, ?_, ?_⟩
    · rw [h, ContentHash.ofText, Text.toUTF8_decodeLossy]
    · rw [← Text.toUTF8_decodeLossy]
      exact Text.toUTF8_decodeLossy_eq_iff
  contentHash_of_isValidUTF8 := by
    intro hvalid
    rw [h, ContentHash.ofText, Text.toUTF8_decodeLossy_eq_iff.mpr hvalid]
  record_eq := rfl

namespace DiscoveredFile

variable {file : DiscoveredFile} {tree : FileTree} {names : List String} {shown : String}
  {limit : Nat} {strict : Bool} {parsed : ParsedFile}

/-- **The hash of a file is that of its text**, and that of its bytes only as far as these are
the bytes of a text. -/
theorem hashesText_of_parse (h : file.parse tree names shown limit strict = .ok parsed) :
    ∃ bytes, tree.read names = .ok bytes ∧ HashesText bytes parsed := by
  obtain ⟨bytes, hread, hparsed⟩ := parse_eq_ok h
  rw [ParsedFile.ofText_eq_ok hparsed]
  exact ⟨bytes, hread, hashesText_of_eq rfl⟩

/-- A comment with a byte that stands for no character. -/
def strayBytes : ByteArray := ⟨#[0x2F, 0x2F, 0xFF, 0x0A]⟩

def strayTree : FileTree := { entries := [("a.js", .file strayBytes)] }

def strayFile : DiscoveredFile :=
  { path := "a.js", group := ".", language := .javaScript, size := strayBytes.size }

/-- The file is read without complaint, and strictly. -/
theorem exists_parse_stray :
    ∃ parsed, strayFile.parse strayTree ["a.js"] "r/a.js" 100 true = .ok parsed := by
  have hok : (strayFile.parse strayTree ["a.js"] "r/a.js" 100 true).isOk = true := by
    decide +kernel
  cases hparsed : strayFile.parse strayTree ["a.js"] "r/a.js" 100 true with
  | error cause => rw [hparsed] at hok; cases hok
  | ok parsed => exact ⟨parsed, rfl⟩

theorem read_stray : strayTree.read ["a.js"] = .ok strayBytes := rfl

/-- The stray byte is hashed as the three bytes of a replacement character. -/
theorem hashesText_of_parse_stray : ∃ parsed,
    strayFile.parse strayTree ["a.js"] "r/a.js" 100 true = .ok parsed ∧
    parsed.contentHash = ContentHash.hash ⟨#[0x2F, 0x2F, 0xEF, 0xBF, 0xBD, 0x0A]⟩ := by
  obtain ⟨parsed, hparsed⟩ := exists_parse_stray
  obtain ⟨bytes, hread, htext⟩ := hashesText_of_parse hparsed
  obtain rfl := Except.ok.inj (read_stray.symm.trans hread)
  obtain ⟨units, hcuts, hhash, _⟩ := htext.contentHash_eq
  refine ⟨parsed, hparsed, hhash.trans ?_⟩
  rw [Text.cuts_iff.mp hcuts]
  exact congrArg ContentHash.hash (by decide +kernel)

/-- So neither the file nor its record has the hash of the bytes that are stored. -/
theorem contentHash_ne_hash_stray : ∃ parsed,
    strayFile.parse strayTree ["a.js"] "r/a.js" 100 true = .ok parsed ∧
    strayTree.read ["a.js"] = .ok strayBytes ∧
    parsed.contentHash ≠ ContentHash.hash strayBytes ∧
    (FileRecord.ofParsed parsed).contentHash ≠
      ContentHash.hex (ContentHash.hash strayBytes) := by
  obtain ⟨parsed, hparsed⟩ := exists_parse_stray
  obtain ⟨bytes, hread, htext⟩ := parse_eq_ok hparsed
  obtain rfl := Except.ok.inj (read_stray.symm.trans hread)
  refine ⟨parsed, hparsed, read_stray, ?_⟩
  rw [ParsedFile.ofText_eq_ok htext]
  decide +kernel

end DiscoveredFile
end CallAtlas

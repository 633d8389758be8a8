import ScriptGate.Lua.Require
import ScriptGate.Proofs.Json.Tokens
import ScriptGate.Proofs.Path

/-!
# Where a module is looked for

As long as `package.path` is what a guest begins with, a name without semicolons has one file, and
the file is below the directory of the scripts, whatever else stands in the name: its dots become
slashes, and slashes lead down only.
-/

namespace ScriptGate

namespace Bytes

theorem toString?_eq_some_iff {b : Bytes} {text : String} :
    b.toString? = some text ↔ ofString text = b := by
  constructor
  · intro reads
    unfold toString? String.fromUTF8? at reads
    split at reads
    · obtain rfl := Option.some.inj reads
      simp [ofString, String.fromUTF8]
    · cases reads
  · rintro rfl
    exact toString?_ofString text

theorem isValidUTF8_of_append (cs : List Char) {rest : ByteArray}
    (valid : (cs.utf8Encode ++ rest).IsValidUTF8) : rest.IsValidUTF8 := by
  induction cs with
  | nil => simpa using valid
  | cons c cs ih =>
    rw [← List.singleton_append, List.utf8Encode_append, ByteArray.append_assoc,
      ByteArray.isValidUTF8_utf8Encode_singleton_append_iff] at valid
    exact ih valid

/-- A text that begins with the bytes of another begins with that text. -/
theorem exists_append_of_lead {text lead : String} {rest : Bytes}
    (shape : ofString text = ofString lead ++ rest) :
    ∃ tail, text = lead ++ tail ∧ ofString tail = rest := by
  have bytes : text.toByteArray = lead.toList.utf8Encode ++ ⟨rest.toArray⟩ := by
    have whole : text.toByteArray = ⟨(ofString text).toArray⟩ := rfl
    rw [whole, shape, ← String.toByteArray_ofList, String.ofList_toList]
    exact ByteArray.ext (by simp [ofString])
  have valid := isValidUTF8_of_append lead.toList (bytes ▸ text.isValidUTF8)
  refine ⟨⟨_, valid⟩, String.toByteArray_inj.mp ?_, rfl⟩
  rw [bytes, String.toByteArray_append, ← String.toByteArray_ofList, String.ofList_toList]

/-- In front of a byte of ASCII a text can be cut in two. -/
theorem exists_append_of_ascii {text : String} {front back : Bytes} {b : UInt8}
    (ascii : b &&& 0x80 = 0) (shape : ofString text = front ++ b :: back) :
    ∃ s t, text = s ++ t ∧ ofString s = front ∧ ofString t = b :: back := by
  have bytes : text.toByteArray = ⟨(front ++ b :: back).toArray⟩ := by
    rw [← shape]
    rfl
  have size : text.utf8ByteSize = front.length + (back.length + 1) := by
    rw [← String.size_toByteArray, bytes]
    simp [ByteArray.size]
  have inside : (⟨front.length⟩ : String.Pos.Raw) < text.rawEndPos := by
    simp [String.Pos.Raw.lt_iff, size]
  have there : text.getUTF8Byte ⟨front.length⟩ inside = b := by
    simp only [String.getUTF8Byte, bytes]
    show (front ++ b :: back).toArray[front.length] = b
    simp
  have valid : (⟨front.length⟩ : String.Pos.Raw).IsValid text :=
    String.Pos.Raw.isValid_iff_isUTF8FirstByte.mpr (.inr ⟨inside, there ▸ .inl ascii⟩)
  obtain ⟨s, t, rfl, ends⟩ := String.Pos.Raw.isValid_iff_exists_append.mp valid
  have length : (ofString s).length = front.length := by
    have same : front.length = s.utf8ByteSize := congrArg String.Pos.Raw.byteIdx ends
    simp [same, ofString]
  rw [Json.ofString_append] at shape
  exact ⟨s, t, rfl, List.append_inj shape length⟩

theorem mem_ofString {s : String} {c : Char} (member : c ∈ s.toList) :
    ∀ b ∈ String.utf8EncodeChar c, b ∈ ofString s := by
  intro b byte
  rw [← String.ofList_toList (s := s), Json.ofString_ofList]
  exact List.mem_flatMap.mpr ⟨c, member, byte⟩

end Bytes

namespace Lua.Require

variable {what value : UInt8} {s name path : Bytes} {root text : String}

/-! ### Templates -/

theorem substitute_append (t : Bytes) :
    substitute what name (s ++ t) = substitute what name s ++ substitute what name t := by
  simp [substitute]

theorem substitute_of_not_mem (whole : what ∉ s) : substitute what name s = s := by
  induction s with
  | nil => rfl
  | cons b r ih =>
    rw [List.mem_cons, not_or] at whole
    rw [substitute, List.flatMap_cons, if_neg (Ne.symm whole.1)]
    exact congrArg (b :: ·) (ih whole.2)

/-- Where one byte stands for another, every byte is put in place by itself. -/
theorem substituteAll_byte {fuel : Nat} (enough : s.length < fuel) :
    substituteAll [what] [value] fuel s = s.map fun b => if b = what then value else b := by
  induction s generalizing fuel with
  | nil => cases fuel <;> rfl
  | cons b r ih =>
    cases fuel with
    | zero => simp at enough
    | succ fuel =>
      have rest := @ih fuel (by simpa using enough)
      by_cases same : b = what
      · simp [substituteAll, same, rest]
      · simp [substituteAll, same, Ne.symm same, rest]

/-- The name of a module as it is put into templates has slashes for its dots. -/
theorem fileName_eq (name : Bytes) :
    fileName name [dot] [slash] = name.map fun b => if b = dot then slash else b :=
  substituteAll_byte (Nat.lt_succ_self _)

theorem dot_not_mem_fileName (name : Bytes) : dot ∉ fileName name [dot] [slash] := by
  rw [fileName_eq, List.mem_map]
  rintro ⟨b, -, shape⟩
  split at shape
  · exact absurd shape (by decide)
  · exact absurd shape (by assumption)

theorem semicolon_not_mem_fileName (whole : semicolon ∉ name) :
    semicolon ∉ fileName name [dot] [slash] := by
  rw [fileName_eq, List.mem_map]
  rintro ⟨b, member, shape⟩
  split at shape
  · exact absurd shape (by decide)
  · exact whole (shape ▸ member)

/-! ### The templates of a guest that has changed nothing -/

/-- What a guest begins with as `package.path`. -/
def ownTemplates (root : String) : Bytes := Bytes.ofString (root ++ "/?.lua")

/-- A directory that templates can name: no separator of them is in its path. -/
structure IsRoot (root : String) : Prop where
  nonempty : root ≠ ""
  no_semicolon : semicolon ∉ Bytes.ofString root
  no_questionMark : questionMark ∉ Bytes.ofString root

def ending : Bytes := Bytes.ofString ".lua"

theorem ownTemplates_eq (root : String) :
    ownTemplates root = Bytes.ofString root ++ slash :: questionMark :: ending := by
  rw [ownTemplates, Json.ofString_append]
  rfl

theorem moduleCandidates_own (isRoot : IsRoot root) (whole : semicolon ∉ name) :
    moduleCandidates (ownTemplates root) name =
      [Bytes.ofString root ++ slash :: (fileName name [dot] [slash] ++ ending)] := by
  have filled : substitute questionMark (fileName name [dot] [slash]) (ownTemplates root) =
      Bytes.ofString root ++ slash :: (fileName name [dot] [slash] ++ ending) := by
    rw [ownTemplates_eq, substitute_append, substitute_of_not_mem isRoot.no_questionMark]
    rfl
  have one : semicolon ∉
      Bytes.ofString root ++ slash :: (fileName name [dot] [slash] ++ ending) := by
    have middle : semicolon ≠ slash := by decide
    have last : semicolon ∉ ending := by decide
    simp [isRoot.no_semicolon, semicolon_not_mem_fileName whole, middle, last]
  rw [moduleCandidates, candidates, filled]
  simp [Text.splitAt_of_not_mem one]

/-- The file of a module is below the directory of the scripts. -/
theorem isBelow_of_own (isRoot : IsRoot root) (whole : semicolon ∉ name)
    (candidate : path ∈ moduleCandidates (ownTemplates root) name)
    (reads : path.toString? = some text) : Path.IsBelow root text := by
  rw [moduleCandidates_own isRoot whole, List.mem_singleton] at candidate
  have bytes := Bytes.toString?_eq_some_iff.mp reads
  rw [candidate] at bytes
  have bytes : Bytes.ofString text =
      Bytes.ofString (root ++ "/") ++ (fileName name [dot] [slash] ++ ending) := by
    rw [bytes, Json.ofString_append, List.append_assoc]
    rfl
  obtain ⟨tail, rfl, rest⟩ := Bytes.exists_append_of_lead bytes
  obtain ⟨front, last, rfl, inner, outer⟩ := Bytes.exists_append_of_ascii rfl rest
  obtain rfl : last = ".lua" := Option.some.inj <| by
    rw [← Bytes.toString?_ofString last, outer]
    exact Bytes.toString?_ofString ".lua"
  refine Path.isBelow_script isRoot.nonempty fun member => dot_not_mem_fileName name ?_
  rw [← inner]
  exact Bytes.mem_ofString member dot (by decide)

end Lua.Require

end ScriptGate

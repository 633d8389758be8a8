import ScriptGate.Proofs.Bridge.Depth
import ScriptGate.Proofs.Decimal.Numeral
import ScriptGate.Proofs.Guest.Answer
import ScriptGate.Proofs.Guest.Reactions
import ScriptGate.Proofs.Json.Number

/-!
# What a call of the response does

A call of a function of the response is read as a whole before it changes anything. So one that
raises an error, other than the one that ends the script, leaves the answer as it was; any other
call of an answer that is not closed does what its arguments say, part by part. An answer that is
closed stays as it is, whatever it is asked to record.
-/

namespace ScriptGate.Guest.Declaration

open Lua (Value Heap)

variable {h : Heap} {args : List Value} {v c m d : Value} {n : ℤ} {f : Capability} {fault : Fault}

/-! ### Numerals -/

theorem foldl_digits {ds : List Char} (digits : Decimal.AllDigits ds) (n : ℕ) :
    ds.foldl (fun (n : ℤ) c => n * 10 + (c.toNat - 0x30)) n = (Nat.ofDigitChars 10 ds n : ℤ) := by
  induction ds generalizing n with
  | nil => rfl
  | cons d rest ih =>
    have least : '0'.toNat ≤ d.toNat := by
      have digit := digits d List.mem_cons_self
      simp only [Char.isDigit, Bool.and_eq_true, decide_eq_true_eq] at digit
      exact digit.1
    have next : (n : ℤ) * 10 + (d.toNat - 0x30) = ((10 * n + (d.toNat - '0'.toNat) : ℕ) : ℤ) := by
      rw [Nat.cast_add, Nat.cast_sub least]
      push_cast
      rw [mul_comm]
    rw [List.foldl_cons, next, ih fun e member => digits e (List.mem_cons_of_mem d member),
      Nat.ofDigitChars_cons]

theorem signed_digits_iff (negative : Bool) (ds : List Char) :
    (if ds.isEmpty || !ds.all Char.isDigit then none
      else
        let n : ℤ := ds.foldl (fun n c => n * 10 + (c.toNat - 0x30)) 0
        let i := if negative then -n else n
        if Word.IsSigned64 i then some i else none) = some n ↔
      (ds ≠ [] ∧ Decimal.AllDigits ds ∧
        n = if negative then -(Decimal.readDigits ds : ℤ) else Decimal.readDigits ds) ∧
      Word.IsSigned64 n := by
  by_cases numeral : ds ≠ [] ∧ Decimal.AllDigits ds
  · obtain ⟨nonempty, digits⟩ := numeral
    have test : (ds.isEmpty || !ds.all Char.isDigit) = false := by
      rw [Bool.or_eq_false_iff, Bool.not_eq_false', List.all_eq_true]
      exact ⟨by simpa using nonempty, digits⟩
    have folded := foldl_digits digits 0
    rw [Nat.cast_zero] at folded
    rw [test, if_neg Bool.false_ne_true, folded]
    dsimp only
    rw [Option.ite_none_right_eq_some, Option.some_inj]
    constructor
    · rintro ⟨fits, rfl⟩
      exact ⟨⟨nonempty, digits, rfl⟩, fits⟩
    · rintro ⟨⟨-, -, rfl⟩, fits⟩
      exact ⟨fits, rfl⟩
  · have test : (ds.isEmpty || !ds.all Char.isDigit) = true := by
      by_contra other
      rw [Bool.not_eq_true, Bool.or_eq_false_iff, Bool.not_eq_false', List.all_eq_true] at other
      exact numeral ⟨by simpa using other.1, other.2⟩
    rw [test, if_pos rfl]
    exact iff_of_false (by simp) fun ⟨⟨nonempty, digits, _⟩, _⟩ => numeral ⟨nonempty, digits⟩

theorem integer?_eq_some_iff {s : String} :
    integer? s = some n ↔ Decimal.WritesInt s.toList n ∧ Word.IsSigned64 n := by
  unfold integer?
  split
  rename_i negative ds signed
  rw [signed_digits_iff]
  refine and_congr_left fun _ => ?_
  split at signed
  · rename_i shape
    cases signed
    rw [shape, Decimal.writesInt_minus_iff]
    rfl
  · rename_i shape
    cases signed
    rw [shape, Decimal.writesInt_plus_iff]
    rfl
  · rename_i no_minus no_plus
    cases signed
    rw [Decimal.writesInt_unsigned_iff no_minus no_plus]
    rfl

/-! ### Codes -/

/-- The integer that a value gives as a code: it is one, or a double whose value is one, or a
numeral, with blanks around it or not, of one that fits a word. -/
inductive GivesInteger : Value → ℤ → Prop where
  | int (i : Int64) : GivesInteger (.int i) i.toInt
  | float {x : Binary64} {n : ℤ} (finite : x.isFinite = true) (whole : x.toRat = n) :
      GivesInteger (.float x) n
  | text {s : Bytes} {n : ℤ} (writes : Decimal.WritesInt (Text.trim (Utf8.lossy s)).toList n)
      (fits : Word.IsSigned64 n) : GivesInteger (.str s) n

def held (n : ℤ) : ℤ := max Word.least64 (min Word.greatest64 n)

theorem held_of_fits (fits : Word.IsSigned64 n) : held n = n := by
  obtain ⟨least, greatest⟩ := fits
  rw [held, min_eq_right greatest, max_eq_right least]

theorem code_of_integer (gives : GivesInteger v n) : code v = .ok (some (held n)) := by
  cases gives with
  | int i =>
    have fits : Word.IsSigned64 i.toInt := ⟨i.le_toInt, Int.le_of_lt_add_one i.toInt_lt⟩
    rw [held_of_fits fits]
    rfl
  | @float x n finite whole =>
    have test : (x.isFinite && x.isIntegral) = true :=
      Bool.and_eq_true_iff.mpr ⟨finite, (Binary64.isIntegral_iff finite).mpr ⟨n, whole⟩⟩
    show (if x.isFinite && x.isIntegral then _ else _) = _
    rw [if_pos test, Binary64.saturate_eq finite, whole, wholePart_intCast]
    rfl
  | @text s n writes fits =>
    have read := integer?_eq_some_iff.mpr ⟨writes, fits⟩
    rw [held_of_fits fits]
    unfold code
    dsimp only
    rw [read]

theorem code_error_iff :
    code v = .error fault ↔ fault = .notACode ∧ v ≠ .nil ∧ ∀ n, ¬ GivesInteger v n := by
  by_cases gives : ∃ n, GivesInteger v n
  · obtain ⟨n, gives⟩ := gives
    rw [code_of_integer gives]
    exact iff_of_false (by simp) fun ⟨_, _, nothing⟩ => nothing n gives
  · rw [not_exists] at gives
    unfold code
    split
    · simp
    · exact absurd (.int _) (gives _)
    · rename_i x
      rw [if_neg]
      · simp [gives, eq_comm]
      · intro test
        obtain ⟨finite, integral⟩ := Bool.and_eq_true_iff.mp test
        obtain ⟨n, whole⟩ := (Binary64.isIntegral_iff finite).mp integral
        exact gives n (.float finite whole)
    · rename_i s
      split
      · rename_i i read
        obtain ⟨writes, fits⟩ := integer?_eq_some_iff.mp read
        exact absurd (.text writes fits) (gives i)
      · simp [gives, eq_comm]
    · rename_i not_nil _ _ _
      have given : v ≠ .nil := not_nil
      simp [gives, given, eq_comm]

theorem toError_code_of_held {e : Answer.ErrorDraft} (recorded : e.code = some (held n)) :
    e.toError.code = if Rpc.IsCode n then n else -32603 := by
  have small : Rpc.IsCode n → held n = n := fun ⟨least, greatest⟩ =>
    held_of_fits ⟨by simp only [Word.least32, Word.least64] at *; omega,
      by simp only [Word.greatest32, Word.greatest64] at *; omega⟩
  -- What is held at an end of the longer word is beyond the shorter one as before.
  have same : Rpc.IsCode (held n) ↔ Rpc.IsCode n := by
    simp only [Rpc.IsCode, Word.IsSigned32, held, Word.least32, Word.greatest32, Word.least64,
      Word.greatest64]
    omega
  simp only [Answer.ErrorDraft.toError, recorded]
  by_cases fits : Rpc.IsCode n
  · rw [dif_pos (same.mpr fits), if_pos fits]
    exact small fits
  · rw [dif_neg (same.not.mpr fits), if_neg fits]
    rfl

/-! ### Parts of an error -/

/-- The code, the message and the data of an error, as the members of a table or one after the
other. -/
inductive ErrorForm (h : Heap) (args : List Value) : Value → Value → Value → Prop where
  | members {place : Nat} (table : Argument.get args 0 = .table place) :
      ErrorForm h args (h.member place "code") (h.member place "message") (h.member place "data")
  | listed (no_table : ∀ place, Argument.get args 0 ≠ .table place) :
      ErrorForm h args (Argument.get args 0) (Argument.get args 1) (Argument.get args 2)

theorem exists_form (h : Heap) (args : List Value) : ∃ c m d, ErrorForm h args c m d := by
  by_cases table : ∃ place, Argument.get args 0 = .table place
  · obtain ⟨place, table⟩ := table
    exact ⟨_, _, _, .members table⟩
  · rw [not_exists] at table
    exact ⟨_, _, _, .listed table⟩

theorem parts_eq (form : ErrorForm h args c m d) :
    parts h args = do return { code := ← code c, message := message h m, data := ← data h d } := by
  unfold parts
  cases form with
  | members table => rw [table]
  | listed no_table =>
    split
    rename_i split_eq
    split at split_eq
    · rename_i table
      exact absurd table (no_table _)
    · cases split_eq
      rfl

theorem data_of_given (not_nil : d ≠ .nil) (not_null : d ≠ .null) :
    data h d = (Argument.json h d).map some := by
  cases d with
  | nil => exact absurd rfl not_nil
  | null => exact absurd rfl not_null
  | _ => rfl

theorem data_of_absent (absent : d = .nil ∨ d = .null) : data h d = .ok none := by
  rcases absent with rfl | rfl <;> rfl

theorem data_error_iff (sound : ∀ place, (h.table place).Sound) :
    data h d = .error fault ↔ fault = .bridge .tooDeep ∧ Bridge.IsTooDeep h d := by
  by_cases absent : d = .nil ∨ d = .null
  · have no_table : ∀ place, d ≠ .table place := by
      rintro place rfl
      simp at absent
    rw [data_of_absent absent]
    exact iff_of_false (by simp) fun ⟨_, deep⟩ => Bridge.not_tooDeep_of_no_table no_table deep
  · rw [not_or] at absent
    rw [data_of_given absent.1 absent.2, ← Bridge.json_error_iff sound]
    cases Argument.json h d <;> simp [Except.map]

/-- What is made of the parts of an error: those that are absent leave what there was before, and
the others take its place. -/
structure Records (h : Heap) (c m d : Value) (before after : Answer.ErrorDraft) : Prop where
  no_code : c = .nil → after.code = before.code
  code : ∀ n, GivesInteger c n → after.toError.code = if Rpc.IsCode n then n else -32603
  no_message : m = .nil → after.message = before.message
  message : m ≠ .nil → after.message = some (render h m)
  no_data : d = .nil ∨ d = .null → after.data = before.data
  data : d ≠ .nil → d ≠ .null → ∃ j, Bridge.toJson h d = .ok j ∧ after.data = some j

theorem records_merge (form : ErrorForm h args c m d) {later : Answer.ErrorDraft}
    (read : parts h args = .ok later) (before : Answer.ErrorDraft) :
    Records h c m d before (before.merge later) := by
  rw [parts_eq form] at read
  obtain ⟨code', coded, read⟩ := Json.bind_eq_ok read
  obtain ⟨data', carried, read⟩ := Json.bind_eq_ok read
  cases read
  refine ⟨?_, fun n gives => ?_, ?_, fun given => ?_, fun absent => ?_, fun not_nil not_null => ?_⟩
  · rintro rfl
    cases coded
    rfl
  · rw [code_of_integer gives] at coded
    cases coded
    exact toError_code_of_held rfl
  · rintro rfl
    rfl
  · have shown : message h m = some (render h m) := by
      cases m with
      | nil => exact absurd rfl given
      | _ => rfl
    rw [Answer.ErrorDraft.merge, shown, Option.some_or]
  · rw [data_of_absent absent] at carried
    cases carried
    rfl
  · rw [data_of_given not_nil not_null] at carried
    obtain ⟨j, crossed, rfl⟩ := Json.map_eq_ok carried
    exact ⟨j, json_eq_ok_iff.mp crossed, rfl⟩

/-! ### Calls -/

def functions : List Capability :=
  [.responseSet, .responseSend, .responseSetError, .responseSendError]

def TakesValue (f : Capability) : Prop := f = .responseSet ∨ f = .responseSend

def TakesError (f : Capability) : Prop := f = .responseSetError ∨ f = .responseSendError

/-- The faults of a call other than the one that ends the script. -/
inductive Fails (h : Heap) (args : List Value) (f : Capability) : Fault → Prop where
  | value (takes : TakesValue f) (deep : Bridge.IsTooDeep h (Argument.get args 0)) :
      Fails h args f (.bridge .tooDeep)
  | code {c m d : Value} (takes : TakesError f) (form : ErrorForm h args c m d) (given : c ≠ .nil)
      (no_integer : ∀ n, ¬ GivesInteger c n) : Fails h args f .notACode
  | data {c m d : Value} (takes : TakesError f) (form : ErrorForm h args c m d)
      (reads : c = .nil ∨ ∃ n, GivesInteger c n) (deep : Bridge.IsTooDeep h d) :
      Fails h args f (.bridge .tooDeep)

theorem code_ok_iff : (∃ i, code c = .ok i) ↔ c = .nil ∨ ∃ n, GivesInteger c n := by
  cases coded : code c with
  | error refused =>
    obtain ⟨-, given, no_integer⟩ := code_error_iff.mp coded
    exact iff_of_false (by simp) (by simp [given, no_integer])
  | ok i =>
    refine iff_of_true ⟨i, rfl⟩ ?_
    by_contra neither
    rw [not_or, not_exists] at neither
    cases coded.symm.trans (code_error_iff.mpr ⟨rfl, neither⟩)

theorem parts_error_iff (sound : ∀ place, (h.table place).Sound)
    (form : ErrorForm h args c m d) : parts h args = .error fault ↔
      (fault = .notACode ∧ c ≠ .nil ∧ ∀ n, ¬ GivesInteger c n) ∨
      ((c = .nil ∨ ∃ n, GivesInteger c n) ∧ fault = .bridge .tooDeep ∧ Bridge.IsTooDeep h d) := by
  rw [parts_eq form, ← code_error_iff, ← code_ok_iff, ← data_error_iff sound]
  cases code c with
  | error refused => simp [bind, Except.bind]
  | ok i => cases data h d <;> simp [bind, Except.bind, pure, Except.pure]

theorem takes_of_mem (response : f ∈ functions) : TakesValue f ∨ TakesError f := by
  simpa [functions, TakesValue, TakesError, or_assoc] using response

theorem value?_eq (given : v ≠ .nil) : value? h v = (Argument.json h v).map some := by
  cases v with
  | nil => exact absurd rfl given
  | _ => rfl

theorem value?_error_iff (sound : ∀ place, (h.table place).Sound) :
    value? h v = .error fault ↔ fault = .bridge .tooDeep ∧ Bridge.IsTooDeep h v := by
  by_cases absent : v = .nil
  · subst absent
    have no_table : ∀ place, Value.nil ≠ .table place := by simp
    exact iff_of_false (by simp [value?, Argument.optional, Value.isNil]) fun ⟨_, deep⟩ =>
      Bridge.not_tooDeep_of_no_table no_table deep
  · rw [value?_eq absent, ← Bridge.json_error_iff sound]
    cases Argument.json h v <;> simp [Except.map]

theorem read_value_error_iff (sound : ∀ place, (h.table place).Sound) (takes : TakesValue f) :
    read f h args = some (.error fault) ↔
      fault = .bridge .tooDeep ∧ Bridge.IsTooDeep h (Argument.get args 0) := by
  rcases takes with rfl | rfl
  · rw [← Bridge.json_error_iff sound]
    cases crossed : Argument.json h (Argument.get args 0) <;> simp [read, crossed, Except.map]
  · rw [← value?_error_iff sound]
    cases crossed : value? h (Argument.get args 0) <;> simp [read, crossed, Except.map]

theorem read_parts_error_iff (takes : TakesError f) :
    read f h args = some (.error fault) ↔ parts h args = .error fault := by
  rcases takes with rfl | rfl <;> cases made : parts h args <;> simp [read, made, Except.map]

theorem read_error_iff (sound : ∀ place, (h.table place).Sound) (response : f ∈ functions) :
    read f h args = some (.error fault) ↔ Fails h args f fault := by
  constructor
  · intro failed
    rcases takes_of_mem response with takes | takes
    · obtain ⟨rfl, deep⟩ := (read_value_error_iff sound takes).mp failed
      exact .value takes deep
    · obtain ⟨c, m, d, form⟩ := exists_form h args
      rw [read_parts_error_iff takes, parts_error_iff sound form] at failed
      rcases failed with ⟨rfl, given, no_integer⟩ | ⟨reads, rfl, deep⟩
      · exact .code takes form given no_integer
      · exact .data takes form reads deep
  · intro fails
    cases fails with
    | value takes deep => exact (read_value_error_iff sound takes).mpr ⟨rfl, deep⟩
    | code takes form given no_integer =>
      rw [read_parts_error_iff takes, parts_error_iff sound form]
      exact .inl ⟨rfl, given, no_integer⟩
    | data takes form reads deep =>
      rw [read_parts_error_iff takes, parts_error_iff sound form]
      exact .inr ⟨reads, rfl, deep⟩

/-- How a call ends that does not fail. -/
def ending : Capability → Except Fault (List Value)
  | .responseSend | .responseSendError => .error .halt
  | _ => .ok []

/-- What a call that does not fail makes of an answer that is not closed. -/
inductive Declares (h : Heap) (args : List Value) (before : Answer.Draft) :
    Capability → Answer.Draft → Prop where
  | set {j : Json} (crosses : Bridge.toJson h (Argument.get args 0) = .ok j) :
      Declares h args before .responseSet
        { before with result := some (Answer.Draft.combine before.result j) }
  | sendNothing (absent : Argument.get args 0 = .nil) :
      Declares h args before .responseSend { before with closing := some .result }
  | send {j : Json} (given : Argument.get args 0 ≠ .nil)
      (crosses : Bridge.toJson h (Argument.get args 0) = .ok j) :
      Declares h args before .responseSend
        { before with
          result := some (Answer.Draft.combine before.result j)
          closing := some .result }
  | setError {c m d : Value} {error : Answer.ErrorDraft} (form : ErrorForm h args c m d)
      (records : Records h c m d before.error error) :
      Declares h args before .responseSetError { before with error }
  | sendError {c m d : Value} {error : Answer.ErrorDraft} (form : ErrorForm h args c m d)
      (records : Records h c m d before.error error) :
      Declares h args before .responseSendError { before with error, closing := some .error }

theorem declares_of_read {before : Answer.Draft} {made : Declaration} (response : f ∈ functions)
    (found : read f h args = some (.ok made)) (isOpen : before.isClosed = false) :
    Declares h args before f (made.apply before) := by
  obtain ⟨c, m, d, form⟩ := exists_form h args
  rw [apply_of_open isOpen]
  obtain ⟨result, error, closing⟩ := before
  obtain rfl : closing = none := by simpa [Answer.Draft.isClosed] using isOpen
  unfold read at found
  split at found
  · obtain ⟨j, crosses, rfl⟩ := Json.map_eq_ok (Option.some.inj found)
    exact .set (json_eq_ok_iff.mp crosses)
  · obtain ⟨value, crosses, rfl⟩ := Json.map_eq_ok (Option.some.inj found)
    by_cases absent : Argument.get args 0 = .nil
    · rw [absent] at crosses
      cases crosses
      exact .sendNothing absent
    · rw [value?_eq absent] at crosses
      obtain ⟨j, inside, rfl⟩ := Json.map_eq_ok crosses
      exact .send absent (json_eq_ok_iff.mp inside)
  · obtain ⟨later, made, rfl⟩ := Json.map_eq_ok (Option.some.inj found)
    exact .setError form (records_merge form made error)
  · obtain ⟨later, made, rfl⟩ := Json.map_eq_ok (Option.some.inj found)
    exact .sendError form (records_merge form made error)
  · cases found

theorem ending_of_read {made : Declaration} (found : read f h args = some (.ok made)) :
    (if made.isFinal then .error .halt else .ok []) = ending f := by
  unfold read at found
  split at found
  · obtain ⟨j, -, rfl⟩ := Json.map_eq_ok (Option.some.inj found)
    rfl
  · obtain ⟨value, -, rfl⟩ := Json.map_eq_ok (Option.some.inj found)
    rfl
  · obtain ⟨later, -, rfl⟩ := Json.map_eq_ok (Option.some.inj found)
    rfl
  · obtain ⟨later, -, rfl⟩ := Json.map_eq_ok (Option.some.inj found)
    rfl
  · cases found

theorem isSome_read (response : f ∈ functions) (h : Heap) (args : List Value) :
    (read f h args).isSome := by
  rcases takes_of_mem response with (rfl | rfl) | (rfl | rfl) <;> rfl

/-- A call of a function of the response either fails and changes nothing, so that a script can
catch the error and answer all the same, or does what its arguments say: an answer that is not
closed has exactly the parts that are given, an integer as its code if it fits one and the code of
an internal error if not, and keeps those that are absent. An answer that is closed stays as it
is. -/
theorem all_or_nothing (e : Surroundings) (w : World) (sound : ∀ place, (h.table place).Sound)
    (response : f ∈ functions) (args : List Value) :
    let r := Host.call e w h f args
    (∀ fault, fault ≠ .halt → r.result = .error fault → r.world = w ∧ r.heap = h) ∧
    (∀ fault, fault ≠ .halt ∧ r.result = .error fault ↔ Fails h args f fault) ∧
    ((∀ fault, ¬ Fails h args f fault) →
      r.result = ending f ∧ r.heap = h ∧ (w.draft.isClosed = true → r.world = w) ∧
      (w.draft.isClosed = false →
        ∃ draft, r.world = { w with draft } ∧ Declares h args w.draft f draft)) := by
  intro r
  obtain ⟨declared, found⟩ := Option.isSome_iff_exists.mp (isSome_read response h args)
  have eq : r = Host.declare w h declared := Host.call_of_read found
  have failure (fault : Fault) : Fails h args f fault ↔ declared = .error fault := by
    rw [← read_error_iff sound response, found, Option.some_inj]
  rw [eq]
  -- The arguments are read first, so a fault of theirs is all that comes of the call.
  cases declared with
  | error given =>
    refine ⟨fun _ _ _ => ⟨rfl, rfl⟩, fun fault => ?_, fun never => ?_⟩
    · have result : (Host.declare w h (.error given)).result = .error given := rfl
      have never_halts : given ≠ .halt := by
        rintro rfl
        cases (failure _).mpr rfl
      rw [failure, result, Except.error.injEq, Except.error.injEq]
      exact ⟨fun raised => raised.2, fun same => ⟨same ▸ never_halts, same⟩⟩
    · exact absurd ((failure given).mpr rfl) (never given)
  | ok made =>
    have ends := ending_of_read found
    have only_halt {fault : Fault} (raised : ending f = .error fault) : fault = .halt := by
      unfold ending at raised
      split at raised <;> cases raised <;> rfl
    have result : (Host.declare w h (.ok made)).result = ending f := ends
    rw [result]
    refine ⟨fun fault other raised => absurd (only_halt raised) other, fun fault => ?_, fun _ => ?_⟩
    · rw [failure]
      exact iff_of_false (fun ⟨other, raised⟩ => other (only_halt raised)) (by simp)
    · refine ⟨rfl, rfl, fun closed => ?_, fun isOpen => ?_⟩
      · show { w with draft := made.apply w.draft } = w
        rw [apply_of_closed closed]
      · exact ⟨_, rfl, declares_of_read response found isOpen⟩

/-- A numeral with blanks around it where there is a message already, and a text that is none. -/
theorem all_or_nothing_of_numeral :
    let w : World := { draft := { error := { message := some "gone" } } }
    let answered := Host.call .bare w {} .responseSendError [.text " 7 "]
    let refused := Host.call .bare w {} .responseSetError [.text "seven"]
    (∃ draft, answered.world = { w with draft } ∧ draft.error.toError.code = 7 ∧
      draft.error.message = some "gone" ∧ draft.closing = some .error) ∧
    Fails {} [.text "seven"] .responseSetError .notACode ∧ refused.world = w := by
  intro w answered refused
  have sound (place : Nat) : (({} : Heap).table place).Sound := by
    have empty : ({} : Heap).table place = {} := by simp [Heap.table]
    rw [empty]
    exact Lua.Table.sound_empty
  obtain ⟨-, fails_iff, does⟩ := all_or_nothing (f := .responseSendError) .bare w sound
    (by decide) [.text " 7 "]
  obtain ⟨unchanged, fails_iff', -⟩ := all_or_nothing (f := .responseSetError) .bare w sound
    (by decide) [.text "seven"]
  have halts : answered.result = .error .halt := rfl
  have raises : refused.result = .error .notACode := rfl
  have gives : GivesInteger (.text " 7 ") 7 := by
    have digit : Decimal.AllDigits ['7'] := by simp [Decimal.AllDigits]
    have seven : Decimal.WritesInt ['7'] 7 := .natural (.digits digit (List.cons_ne_nil _ _))
    exact .text seven (by decide)
  refine ⟨?_, (fails_iff' .notACode).mp ⟨by simp, raises⟩, ?_⟩
  · have succeeds (fault : Fault) : ¬ Fails {} [.text " 7 "] .responseSendError fault := by
      intro fails
      obtain ⟨other, raised⟩ := (fails_iff fault).mpr fails
      exact other (Except.error.inj (raised.symm.trans halts))
    obtain ⟨-, -, -, opened⟩ := does succeeds
    obtain ⟨draft, same, declares⟩ := opened rfl
    refine ⟨draft, same, ?_⟩
    cases declares with
    | sendError form records =>
      cases form with
      | members table => cases table
      | listed => exact ⟨records.code 7 gives, records.no_message rfl, rfl⟩
  · exact (unchanged .notACode (by simp) raises).1

/-- What is recorded after the answer has been closed does not count, and a missing value is null
where a value is set. -/
theorem closed_and_missing :
    (¬ ∀ e w h args c m d n, ErrorForm h args c m d → GivesInteger c n →
      (Host.call e w h .responseSetError args).result = .ok [] →
      (Host.call e w h .responseSetError args).world.draft.error.toError.code =
        if Rpc.IsCode n then n else -32603) ∧
    ¬ ∀ e w h args, Argument.get args 0 = .nil →
      (Host.call e w h .responseSet args).world.draft.result = w.draft.result := by
  constructor
  · intro recorded
    have form : ErrorForm {} [.int 2] (.int 2) .nil .nil := .listed (by simp [Argument.get, Value.int])
    have second := recorded .bare (Host.call .bare {} {} .responseSendError [.int 1]).world {}
      [.int 2] _ _ _ _ form (.int 2) rfl
    revert second
    decide
  · intro kept
    have second := kept .bare (Host.call .bare {} {} .responseSet [.text "a"]).world {} [] rfl
    revert second
    decide

end ScriptGate.Guest.Declaration

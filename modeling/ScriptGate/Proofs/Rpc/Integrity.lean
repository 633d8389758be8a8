import ScriptGate.Proofs.Json.Injective
import ScriptGate.Proofs.Rpc.Response

/-!
# What a stamp binds

The checksum of a stamp covers the payload: the result, or the error as a value. Texts tell payloads
apart, so a stamp that holds for two answers holds for one payload, unless two texts have one
digest. What the checksum does not cover is the kind of the payload: a result that is the value of
an error passes for the error.
-/

namespace ScriptGate

/-! ### Digests in hexadecimal -/

theorem Bytes.hexDigit_injective :
    ∀ m n : Fin 16, hexDigit m.val = hexDigit n.val → m = n := by decide

theorem Bytes.toHex_injective {b c : Bytes} (same : b.toHex = c.toHex) : b = c := by
  have digits := String.ofList_injective same
  clear same
  induction b generalizing c with
  | nil =>
    cases c with
    | nil => rfl
    | cons y c => simp at digits
  | cons x b ih =>
    cases c with
    | nil => simp at digits
    | cons y c =>
      simp only [List.flatMap_cons, List.cons_append, List.nil_append, List.cons.injEq] at digits
      obtain ⟨high, low, rest⟩ := digits
      have bound := x.toNat_lt
      have bound' := y.toNat_lt
      have highs := congrArg Fin.val (hexDigit_injective ⟨x.toNat / 16, by omega⟩
        ⟨y.toNat / 16, by omega⟩ high)
      have lows := congrArg Fin.val (hexDigit_injective ⟨x.toNat % 16, by omega⟩
        ⟨y.toNat % 16, by omega⟩ low)
      have bytes : x = y := UInt8.toNat_inj.mp (by simp only at highs lows; omega)
      rw [bytes, ih rest]

namespace Rpc

theorem checksum_eq_iff {v w : Json} :
    checksum v = checksum w ↔ Sha256.digest v.encode = Sha256.digest w.encode :=
  ⟨fun same => Bytes.toHex_injective same, fun same => congrArg Bytes.toHex same⟩

/-- The value of an error tells its code, its message and its data. -/
theorem Error.toJson_injective {e f : Error} (same : e.toJson = f.toJson) : e = f := by
  obtain ⟨code, message, data, isCode⟩ := e
  obtain ⟨code', message', data', isCode'⟩ := f
  have word := Error.isWord ⟨code, message, data, isCode⟩
  have word' := Error.isWord ⟨code', message', data', isCode'⟩
  simp only at word word'
  cases data <;> cases data' <;>
    simp [toJson, Json.int, word, word'] at same ⊢ <;> simp [same]

namespace Response

/-- An answer has a result or an error, and not both. -/
def IsAnswer (r : Response) : Prop := r.result.isSome ≠ r.error.isSome

/-- Two answers have the same result or the same error. -/
def SameOutcome (r s : Response) : Prop := r.result = s.result ∧ r.error = s.error

/-- One of two answers is an error and the result of the other is its value. -/
def Disguised (r s : Response) : Prop :=
  ∃ e, (r.error = some e ∧ s.result = some e.toJson) ∨ (s.error = some e ∧ r.result = some e.toJson)

/-- The payloads of two answers have different texts of one digest. -/
def Collide (r s : Response) : Prop :=
  r.payload.encode ≠ s.payload.encode ∧
    Sha256.digest r.payload.encode = Sha256.digest s.payload.encode

theorem IsAnswer.cases {r : Response} (answer : r.IsAnswer) :
    (∃ v, r.result = some v ∧ r.error = none ∧ r.payload = v) ∨
      ∃ e, r.error = some e ∧ r.result = none ∧ r.payload = e.toJson := by
  unfold IsAnswer at answer
  cases result : r.result with
  | none =>
    cases error : r.error with
    | none => simp [result, error] at answer
    | some e => exact .inr ⟨e, rfl, rfl, by simp [payload, error]⟩
  | some v =>
    cases error : r.error with
    | none => exact .inl ⟨v, rfl, rfl, by simp [payload, result, error]⟩
    | some e => simp [result, error] at answer

/-- Answers of one payload have one outcome, or one of them is disguised. -/
theorem payload_eq_iff {r s : Response} (answer : r.IsAnswer) (answer' : s.IsAnswer) :
    r.payload = s.payload ↔ r.SameOutcome s ∨ r.Disguised s := by
  rcases answer.cases with ⟨v, result, error, payload⟩ | ⟨e, error, result, payload⟩ <;>
    rcases answer'.cases with ⟨w, result', error', payload'⟩ | ⟨f, error', result', payload'⟩
  · simp [SameOutcome, Disguised, result, error, payload, result', error', payload']
  · simp [SameOutcome, Disguised, result, error, payload, result', error', payload']
  · simp [SameOutcome, Disguised, result, error, payload, result', error', payload', eq_comm]
  · have errors : e.toJson = f.toJson ↔ e = f :=
      ⟨Error.toJson_injective, congrArg Error.toJson⟩
    simp [SameOutcome, Disguised, result, error, payload, result', error', payload', errors]

theorem verify_iff {r : Response} : r.verify = true ↔
    ∃ d, r.data = some d ∧ d.checksum = checksum r.payload := by
  cases stamped : r.data <;> simp [verify, stamped]

/-- A stamp that holds for one answer holds for another exactly where the outcome is the same, a
result disguises an error, or the payloads collide. -/
theorem verify_iff_sameOutcome {r s : Response} (answer : r.IsAnswer) (answer' : s.IsAnswer)
    (same_data : r.data = s.data) (verified : r.verify = true) :
    s.verify = true ↔ r.SameOutcome s ∨ r.Disguised s ∨ r.Collide s := by
  obtain ⟨d, stamped, sum⟩ := verify_iff.mp verified
  have holds : s.verify = true ↔ checksum r.payload = checksum s.payload := by
    rw [verify_iff, ← same_data, stamped, ← sum]
    simp
  rw [holds, checksum_eq_iff, ← or_assoc, ← payload_eq_iff answer answer', Collide]
  constructor
  · intro digests
    by_cases texts : r.payload.encode = s.payload.encode
    · exact .inl (Json.encode_injective texts)
    · exact .inr ⟨texts, digests⟩
  · rintro (same | ⟨-, digests⟩)
    · rw [same]
    · exact digests

/-- A result that is not an error in disguise is bound: another one under its stamp is noticed
unless the two collide. -/
theorem verify_iff_sameOutcome_of_flag :
    let r := (success (.int 1) (.bool true)).stamp "n" "salt" none
    let s := { r with result := some (.bool false) }
    r.IsAnswer ∧ s.IsAnswer ∧ r.data = s.data ∧ r.verify = true ∧
      (s.verify = true ↔ r.Collide s) := by
  intro r s
  have answer : r.IsAnswer := by simp [IsAnswer, r, success, stamp]
  have answer' : s.IsAnswer := by simp [IsAnswer, s, r, success, stamp]
  have verified : r.verify = true := verify_stamp ..
  refine ⟨answer, answer', rfl, verified, ?_⟩
  rw [verify_iff_sameOutcome answer answer' rfl verified]
  simp [SameOutcome, Disguised, s, r, success, stamp]

/-- The value of an internal error as a result, and the error itself, under one stamp: both verify,
without a collision. -/
theorem disguised_error_verifies :
    let e := Error.internalError
    let r := (success (.int 1) e.toJson).stamp "n" "salt" none
    let s := { failure (.int 1) e with data := r.data }
    r.IsAnswer ∧ s.IsAnswer ∧ r.data = s.data ∧ r.verify = true ∧ s.verify = true ∧
      ¬ r.SameOutcome s ∧ ¬ r.Collide s := by
  intro e r s
  have same : r.payload = s.payload := rfl
  have verified : r.verify = true := verify_stamp ..
  refine ⟨by simp [IsAnswer, r, success, stamp], by simp [IsAnswer, s, failure], rfl, verified,
    verified, by simp [SameOutcome, s, r, success, failure, stamp], ?_⟩
  rintro ⟨apart, -⟩
  exact apart (by rw [same])

end Response

end Rpc

end ScriptGate

import ScriptGate.Proofs.Json.Number
import ScriptGate.Proofs.Json.RoundTrip
import ScriptGate.Proofs.Text.Base64Url
import ScriptGate.Token

/-!
# Tokens that are accepted

A token is accepted exactly if it is three segments with a dot between them: a header that names
the algorithm and claims that have not expired, each written in Base64 as it must be, and the
signature of the two (`decode_eq_ok_iff`). So a signature has one text, and one that is not
signed tells nothing about its claims. What is made from claims is accepted until they expire.
-/

namespace ScriptGate.Token

variable {secret token segment : Bytes} {claims : Claims} {now : Int}

/-! ### Time -/

/-- Claims without a numeric `exp`, or before it. -/
def Unexpired (claims : Claims) (now : Int) : Prop :=
  ∀ n, Json.find? "exp" claims = some (.num n) → now < n.seconds

theorem time?_num (n : Json.Number) : time? (.num n) = some n.seconds := by
  cases n with
  | float x finite => exact congrArg some (Binary64.saturate_eq finite _ _)
  | int i word =>
    have held : (Json.Number.int i word).seconds = max Word.least64 (min Word.greatest64 i) :=
      congrArg (fun s => max Word.least64 (min Word.greatest64 s)) (wholePart_intCast i)
    have counted : time? (.num (.int i word)) = some (if i ≤ Word.greatest64 then i
        else (Binary64.ofInt i).saturate Word.least64 Word.greatest64) := rfl
    obtain ⟨least, greatest⟩ := word
    rw [counted, held]
    simp only [Word.least64, Word.greatest64, Word.greatestUnsigned64] at least greatest ⊢
    congr 1
    split
    · omega
    · obtain ⟨n, rfl⟩ := Int.eq_ofNat_of_zero_le (show 0 ≤ i by omega)
      have finite := Binary64.isFinite_ofInt (n := n) (by omega) (by omega)
      have great := Binary64.le_truncate_ofInt (n := n) (by omega) (by omega)
      rw [Binary64.saturate_eq finite, ← Binary64.truncate_eq finite]
      omega

theorem isExpired_iff : isExpired claims now = false ↔ Unexpired claims now := by
  unfold isExpired expiry? Unexpired
  cases Json.find? "exp" claims with
  | none => simp
  | some v =>
    cases v with
    | num n => simp [time?_num]
    | _ => simp [time?]

/-! ### Segments -/

/-- A segment is the Base64 of a text that says a value. -/
def Carries (segment : Bytes) (v : Json) : Prop :=
  ∃ text, segment = Base64Url.encode text ∧ Json.parse text = .ok v

theorem segment?_eq_some_iff {v : Json} : segment? segment = some v ↔ Carries segment v := by
  unfold segment? Carries
  constructor
  · intro read
    split at read
    · cases read
    · rename_i text decoded
      refine ⟨text, Base64Url.decode?_eq_some_iff.mp decoded, ?_⟩
      cases parsed : Json.parse text with
      | error e =>
        rw [parsed] at read
        cases read
      | ok w =>
        rw [parsed] at read
        cases read
        rfl
  · rintro ⟨text, rfl, parsed⟩
    rw [Base64Url.decode?_encode]
    dsimp only
    rw [parsed]
    rfl

theorem Carries.no_dot {v : Json} (carries : Carries segment v) : dot ∉ segment := by
  obtain ⟨text, rfl, -⟩ := carries
  exact Base64Url.dot_not_mem_encode text

/-- A header that names the algorithm of this library. -/
def IsHeader (segment : Bytes) : Prop :=
  ∃ members, Carries segment (.obj members) ∧ Json.find? "alg" members = some (.str "HS256")

theorem IsHeader.no_dot (header : IsHeader segment) : dot ∉ segment := by
  obtain ⟨members, carries, -⟩ := header
  exact carries.no_dot

theorem isHeader_iff :
    (segment? segment).bind (member? "alg") = some (.str algorithm) ↔ IsHeader segment := by
  rw [Option.bind_eq_some_iff]
  constructor
  · rintro ⟨v, read, named⟩
    cases v with
    | obj members => exact ⟨members, segment?_eq_some_iff.mp read, named⟩
    | _ => cases named
  · rintro ⟨members, carries, named⟩
    exact ⟨.obj members, segment?_eq_some_iff.mpr carries, named⟩

/-! ### Tokens of three segments -/

variable {head payload sign : Bytes}

theorem length_signature : (signature secret head payload).length = 32 := rfl

/-- What is wrong with a token whose signature does not fit. -/
def refusal (head sign : Bytes) : Fault :=
  match (segment? head).bind (member? "alg") with
  | some (.str name) =>
    if name ≠ algorithm then .unsupportedAlgorithm name
    else if (Base64Url.decode? sign).isNone then .malformed
    else .badSignature
  | _ => .malformed

/-- A token whose signature does not fit is refused before its claims are looked at. -/
theorem decodeSegments_unsigned
    (unsigned : sign ≠ Base64Url.encode (signature secret head payload)) :
    decodeSegments head payload sign secret now = .error (refusal head sign) := by
  unfold decodeSegments refusal
  cases (segment? head).bind (member? "alg") with
  | none => rfl
  | some v =>
    cases v with
    | str name =>
      by_cases other : name ≠ algorithm
      · simp only [if_pos other]
      · simp only [if_neg other]
        cases read : Base64Url.decode? sign with
        | none => rfl
        | some given =>
          have differs : given ≠ signature secret head payload := by
            rintro rfl
            exact unsigned (Base64Url.decode?_eq_some_iff.mp read)
          exact if_pos differs
    | _ => rfl

theorem decodeSegments_headless (payload sign secret : Bytes) (now : Int)
    (headless : ¬ IsHeader head) :
    ∃ fault, decodeSegments head payload sign secret now = .error fault := by
  rw [← isHeader_iff] at headless
  unfold decodeSegments
  split
  · rename_i name named
    rw [named] at headless
    rw [if_pos fun same => headless (by rw [same])]
    exact ⟨_, rfl⟩
  · exact ⟨_, rfl⟩

theorem decodeSegments_signed (header : IsHeader head) :
    decodeSegments head payload (Base64Url.encode (signature secret head payload)) secret now =
      match segment? payload with
      | none => .error .malformed
      | some (.obj claims) => if isExpired claims now then .error .expired else .ok claims
      | some _ => .error .claimsNotMap := by
  rw [decodeSegments, isHeader_iff.mpr header]
  dsimp only
  rw [if_neg (not_not_intro rfl), Base64Url.decode?_encode]
  exact if_neg (not_not_intro rfl)

theorem decodeSegments_eq_ok_iff :
    decodeSegments head payload sign secret now = .ok claims ↔
      IsHeader head ∧ sign = Base64Url.encode (signature secret head payload) ∧
        Carries payload (.obj claims) ∧ Unexpired claims now := by
  constructor
  · intro accepted
    have signed : sign = Base64Url.encode (signature secret head payload) := by
      by_contra unsigned
      rw [decodeSegments_unsigned unsigned] at accepted
      cases accepted
    have header : IsHeader head := by
      by_contra headless
      obtain ⟨fault, refused⟩ := decodeSegments_headless payload sign secret now headless
      rw [refused] at accepted
      cases accepted
    rw [signed, decodeSegments_signed header] at accepted
    split at accepted
    · cases accepted
    · rename_i carried
      split at accepted
      · cases accepted
      · rename_i unexpired
        cases accepted
        rw [Bool.not_eq_true] at unexpired
        exact ⟨header, signed, segment?_eq_some_iff.mp carried, isExpired_iff.mp unexpired⟩
    · cases accepted
  · rintro ⟨header, rfl, carries, unexpired⟩
    rw [decodeSegments_signed header, segment?_eq_some_iff.mpr carries]
    dsimp only
    rw [isExpired_iff.mpr unexpired, if_neg Bool.false_ne_true]

/-! ### Whole tokens -/

def segments (token : Bytes) : List Bytes := Text.splitAt dot token

/-- A token of three segments whose last one is the signature of the others. -/
def IsSigned (secret token : Bytes) : Prop :=
  ∃ head payload, segments token = [head, payload, Base64Url.encode (signature secret head payload)]

theorem count_dot (first : dot ∉ head) (second : dot ∉ payload) (third : dot ∉ sign) :
    (head ++ dot :: (payload ++ dot :: sign)).count dot = 2 := by
  simp [List.count_append, List.count_eq_zero_of_not_mem, first, second, third]

theorem decode_of_segments (nonempty : secret ≠ [])
    (three : segments token = [head, payload, sign]) :
    decode token secret now = decodeSegments head payload sign secret now := by
  unfold segments at three
  rw [decode, if_neg nonempty, three]

theorem decode_of_length (nonempty : secret ≠ []) (length : (segments token).length ≠ 3) :
    decode token secret now = .error .malformed := by
  unfold segments at length
  rw [decode, if_neg nonempty]
  split
  · rename_i three
    rw [three] at length
    exact absurd rfl length
  · rfl

theorem decode_eq_ok_iff (nonempty : secret ≠ []) : decode token secret now = .ok claims ↔
    ∃ head payload, segments token =
        [head, payload, Base64Url.encode (signature secret head payload)] ∧
      IsHeader head ∧ Carries payload (.obj claims) ∧ Unexpired claims now := by
  constructor
  · intro accepted
    by_cases length : (segments token).length = 3
    · obtain ⟨head, payload, sign, three⟩ := List.length_eq_three.mp length
      rw [decode_of_segments nonempty three, decodeSegments_eq_ok_iff] at accepted
      obtain ⟨header, rfl, carries, unexpired⟩ := accepted
      exact ⟨head, payload, three, header, carries, unexpired⟩
    · rw [decode_of_length nonempty length] at accepted
      cases accepted
  · rintro ⟨head, payload, three, header, carries, unexpired⟩
    rw [decode_of_segments nonempty three, decodeSegments_eq_ok_iff]
    exact ⟨header, rfl, carries, unexpired⟩

/-- Whoever does not know the signature learns nothing from the claims: what comes of a token that
is not signed follows from its first and its last segment and their number. -/
theorem decode_unsigned {other : Bytes} {later : Int} (nonempty : secret ≠ [])
    (unsigned : ¬ IsSigned secret token) (unsigned' : ¬ IsSigned secret other)
    (length : (segments token).length = (segments other).length)
    (first : (segments token).head? = (segments other).head?)
    (last : (segments token).getLast? = (segments other).getLast?) :
    decode token secret now = decode other secret later := by
  by_cases three : (segments token).length = 3
  · obtain ⟨head, payload, sign, these⟩ := List.length_eq_three.mp three
    obtain ⟨head', payload', sign', those⟩ := List.length_eq_three.mp (length ▸ three)
    -- What is refused is told by the first segment and the last one, which are the same.
    rw [these, those] at first last
    cases first
    cases last
    rw [decode_of_segments nonempty these, decode_of_segments nonempty those,
      decodeSegments_unsigned, decodeSegments_unsigned]
    · rintro rfl
      exact unsigned' ⟨head, payload', those⟩
    · rintro rfl
      exact unsigned ⟨head, payload, these⟩
  · rw [decode_of_length nonempty three, decode_of_length nonempty (length ▸ three)]

/-- A token is accepted exactly if it is a header, claims that have not expired and the signature of
both. So the first two segments leave no choice for the last one, and without the signature the
claims have no influence on what comes of a token. -/
theorem accepts_signed_unexpired (nonempty : secret ≠ []) :
    (∀ token claims now, decode token secret now = .ok claims ↔
      ∃ head payload sign, token = head ++ dot :: (payload ++ dot :: sign) ∧
        token.count dot = 2 ∧ IsHeader head ∧
        sign = Base64Url.encode (Sha256.hmac secret (head ++ dot :: payload)) ∧
        Carries payload (.obj claims) ∧ Unexpired claims now) ∧
    (∀ token other claims claims' now now', decode token secret now = .ok claims →
      decode other secret now' = .ok claims' →
      (segments token).take 2 = (segments other).take 2 → token = other) ∧
    ∀ token other now now', ¬ IsSigned secret token → ¬ IsSigned secret other →
      (segments token).length = (segments other).length →
      (segments token).head? = (segments other).head? →
      (segments token).getLast? = (segments other).getLast? →
      decode token secret now = decode other secret now' := by
  refine ⟨fun token claims now => ?_, fun token other claims claims' now now' one two same => ?_,
    fun token other now now' => decode_unsigned nonempty⟩
  · rw [decode_eq_ok_iff nonempty]
    constructor
    · rintro ⟨head, payload, three, header, carries, unexpired⟩
      obtain ⟨rfl, first, second, third⟩ := Text.splitAt_eq_three_iff.mp three
      exact ⟨head, payload, _, rfl, count_dot first second third, header, rfl, carries, unexpired⟩
    · rintro ⟨head, payload, sign, rfl, -, header, rfl, carries, unexpired⟩
      refine ⟨head, payload, ?_, header, carries, unexpired⟩
      exact Text.splitAt_eq_three_iff.mpr ⟨rfl, header.no_dot, carries.no_dot,
        Base64Url.dot_not_mem_encode _⟩
  · obtain ⟨head, payload, these, -⟩ := (decode_eq_ok_iff nonempty).mp one
    obtain ⟨head', payload', those, -⟩ := (decode_eq_ok_iff nonempty).mp two
    rw [these, those] at same
    cases same
    rw [← Text.intercalate_splitAt dot token, ← Text.intercalate_splitAt dot other]
    exact congrArg _ (these.trans those.symm)

/-- A token made by hand, and two whose signature is not one. -/
theorem accepts_signed_unexpired_of_text :
    let head := Base64Url.encode "\x7b\"alg\":\"HS256\"\x7d"
    let payload := Base64Url.encode "\x7b\"exp\":2\x7d"
    let sign := Base64Url.encode (Sha256.hmac [0x6B] (head ++ dot :: payload))
    let forged (payload : Bytes) : Bytes := head ++ dot :: (payload ++ dot :: [0x41, 0x41])
    decode (head ++ dot :: (payload ++ dot :: sign)) [0x6B] 1 = .ok [("exp", .int 2)] ∧
      decode (forged payload) [0x6B] 1 = decode (forged [0x21]) [0x6B] 3 := by
  intro head payload sign forged
  have nonempty : ([0x6B] : Bytes) ≠ [] := by decide
  obtain ⟨accepts, -, unsigned⟩ := accepts_signed_unexpired nonempty
  have seconds : (Json.Number.int 2 (by decide)).seconds = 2 := by
    have counted : time? (.num (.int 2 (by decide))) = some 2 := by decide +kernel
    rw [time?_num] at counted
    exact Option.some.inj counted
  have header : IsHeader head := ⟨[("alg", .str "HS256")], ⟨_, rfl, by decide +kernel⟩, rfl⟩
  have carries : Carries payload (.obj [("exp", .int 2)]) := ⟨_, rfl, by decide +kernel⟩
  have unexpired : Unexpired [("exp", .int 2)] 1 := fun n found => by
    cases found
    rw [seconds]
    decide
  have count : (head ++ dot :: (payload ++ dot :: sign)).count dot = 2 :=
    count_dot header.no_dot carries.no_dot (Base64Url.dot_not_mem_encode _)
  have not_signed (payload : Bytes)
      (three : segments (forged payload) = [head, payload, [0x41, 0x41]]) :
      ¬ IsSigned [0x6B] (forged payload) := by
    rintro ⟨head', payload', signed⟩
    rw [three] at signed
    simp only [List.cons.injEq] at signed
    obtain ⟨rfl, rfl, last, -⟩ := signed
    -- The text of the forged signature is that of a single byte.
    have single := congrArg List.length (Option.some.inj
      ((show Base64Url.decode? [0x41, 0x41] = some [0] by decide).symm.trans
        (Base64Url.decode?_eq_some_iff.mpr last)))
    rw [length_signature] at single
    cases single
  refine ⟨(accepts _ _ _).mpr ⟨head, payload, sign, rfl, count, header, rfl, carries,
    unexpired⟩, ?_⟩
  exact unsigned _ _ _ _ (not_signed payload (by decide +kernel))
    (not_signed [0x21] (by decide +kernel)) (by decide +kernel) (by decide +kernel)
    (by decide +kernel)

/-! ### Tokens that are made -/

theorem isHeader_header : IsHeader (Base64Url.encode header.encode) :=
  ⟨[("alg", .str algorithm), ("typ", .str "JWT")], ⟨header.encode, rfl, by decide +kernel⟩, rfl⟩

theorem encode_eq (nonempty : secret ≠ []) (claims : Claims) : ∃ token,
    encode claims secret = .ok token ∧ segments token =
      [Base64Url.encode header.encode, Base64Url.encode (Json.obj claims).encode,
        Base64Url.encode (signature secret (Base64Url.encode header.encode)
          (Base64Url.encode (Json.obj claims).encode))] := by
  refine ⟨_, if_neg nonempty, ?_⟩
  rw [List.append_assoc, List.cons_append]
  exact Text.splitAt_eq_three_iff.mpr ⟨rfl, Base64Url.dot_not_mem_encode _,
    Base64Url.dot_not_mem_encode _, Base64Url.dot_not_mem_encode _⟩

/-- Claims that can be read back are accepted from the token that is made of them, until they
expire. -/
theorem decode_of_encode (now : Int) (nonempty : secret ≠ []) (fits : Json.Fits 127 (.obj claims))
    (floats : ∀ x finite, Json.Number.float x finite ∈ (Json.obj claims).numbers →
      (Json.Number.float x finite).ReadsBack) :
    ∃ token, encode claims secret = .ok token ∧
      (Unexpired claims now → decode token secret now = .ok claims) ∧
      (¬ Unexpired claims now → decode token secret now = .error .expired) := by
  obtain ⟨token, made, three⟩ := encode_eq nonempty claims
  have numbers : ∀ n ∈ (Json.obj claims).numbers, n.ReadsBack := fun n member => by
    cases n with
    | int i word => exact Json.readsBack_int word
    | float x finite => exact floats x finite member
  have carries : Carries (Base64Url.encode (Json.obj claims).encode) (.obj claims) :=
    ⟨_, rfl, Json.parse_encode fits numbers⟩
  refine ⟨token, made, ?_⟩
  rw [decode_of_segments nonempty three, decodeSegments_signed isHeader_header,
    segment?_eq_some_iff.mpr carries, ← isExpired_iff]
  cases expired : isExpired claims now with
  | true => simp [expired]
  | false => simp [expired]

/-- Claims with a fraction of a second in their time, two seconds and a half: they are accepted in
the second before it and not from the second second on. -/
theorem decode_of_encode_until_expiry :
    let exp : Json.Number := .float ⟨0x4004000000000000⟩ (by decide)
    let claims : Claims := [("exp", .num exp), ("sub", .obj [("ada", .arr [])])]
    ∃ token, encode claims [0x6B] = .ok token ∧
      decode token [0x6B] 1 = .ok claims ∧ decode token [0x6B] 2 = .error .expired := by
  intro exp claims
  have seconds : exp.seconds = 2 := by
    have counted : time? (.num exp) = some 2 := by decide +kernel
    rw [time?_num] at counted
    exact Option.some.inj counted
  have unexpired (now : Int) : Unexpired claims now ↔ now < 2 := by
    rw [← seconds]
    exact ⟨fun all => all exp rfl, fun before n found => by cases found; exact before⟩
  have fits : Json.Fits 127 (.obj claims) :=
    ⟨⟨by decide, trivial, ⟨by decide, trivial, trivial⟩, trivial⟩, by decide⟩
  have floats : ∀ x finite, Json.Number.float x finite ∈ (Json.obj claims).numbers →
      (Json.Number.float x finite).ReadsBack := fun x finite member => by
    have only := List.mem_singleton.mp member
    rw [only]
    unfold Json.Number.ReadsBack
    decide +kernel
  have nonempty : ([0x6B] : Bytes) ≠ [] := by decide
  obtain ⟨token, made, before, -⟩ := decode_of_encode 1 nonempty fits floats
  obtain ⟨token', made', -, after⟩ := decode_of_encode 2 nonempty fits floats
  obtain rfl : token = token' := Except.ok.inj (made.symm.trans made')
  exact ⟨token, made, before ((unexpired 1).mpr (by decide)),
    after ((unexpired 2).not.mpr (by decide))⟩

end ScriptGate.Token

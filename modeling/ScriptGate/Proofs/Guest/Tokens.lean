import ScriptGate.Proofs.Bridge.Depth
import ScriptGate.Proofs.Bridge.RoundTrip
import ScriptGate.Proofs.Guest.Reactions
import ScriptGate.Proofs.Lua.Require
import ScriptGate.Proofs.Text.Visible
import ScriptGate.Proofs.Token

/-!
# Tokens of a script

The functions that make and read tokens answer with two values, except where the bridge gives up: on
a payload that nests too deep on the way in, and on claims that do on the way out. A token may carry
claims that nest twice as deep as a guest can hold, so the second is up to whoever signs it.
-/

namespace ScriptGate.Guest.Secrets

open Lua (Value Heap)

variable {h : Heap} {options : Nat} {secret : Bytes} {payload : Value} {rest : List Value}
  {fault : Fault}

/-- How a function ends that takes a secret: it raises an error if the secret is no text, or if it
meets what is too deep, and otherwise gives values. -/
inductive Ends (secret : Bytes) (deep : Prop) (gives : List Value → Prop) :
    Except Fault (List Value) → Prop where
  | noText (unread : secret.toString? = none) : Ends secret deep gives (.error .notText)
  | tooDeep (reads : secret.toString?.isSome) (is_deep : deep) :
      Ends secret deep gives (.error (.bridge .tooDeep))
  | values (reads : secret.toString?.isSome) (flat : ¬ deep) {vs : List Value} (given : gives vs) :
      Ends secret deep gives (.ok vs)

theorem Ends.raises {deep : Prop} {gives : List Value → Prop} {result : Except Fault (List Value)}
    (ends : Ends secret deep gives result) (reads : secret.toString?.isSome) (is_deep : deep) :
    result = .error (.bridge .tooDeep) := by
  cases ends with
  | noText unread => simp [unread] at reads
  | tooDeep => rfl
  | values _ flat _ => exact absurd is_deep flat

/-- Options with a secret and a payload, whatever they are, and an integer as the time for which
their token is good, if any. -/
structure Offers (h : Heap) (options : Nat) (secret : Bytes) (payload : Value) : Prop where
  secret : h.member options "secret" = .str secret
  payload : h.member options "payload" = payload
  lifetime : h.member options "expires_in" = .nil ∨ ∃ i, h.member options "expires_in" = .int i

/-- A token of what the payload claims and nil, or nil and a message. -/
def IsTokenOrMessage (h : Heap) (secret : Bytes) (payload : Value) (now : Int) (vs : List Value) :
    Prop :=
  (∃ members expiry token, claims h payload = .ok (some members) ∧ Word.IsSigned64 expiry ∧
    Token.encode (timed members now expiry) secret = .ok token ∧ vs = [.str token, .nil]) ∨
  ∃ message, vs = [.nil, .text message]

/-! ### Arguments -/

theorem secret_of_text (found : h.member options "secret" = .str secret)
    (reads : secret.toString?.isSome) : Secrets.secret h options = .ok secret := by
  obtain ⟨text, reads⟩ := Option.isSome_iff_exists.mp reads
  have bytes := Bytes.toString?_eq_some_iff.mp reads
  have taken : Argument.text (.str secret) = .ok text := by
    simp only [Argument.text, Argument.bytes, Value.toText?, bind, Except.bind, reads]
  rw [Secrets.secret, found]
  simp only [Argument.optional, taken]
  exact congrArg Except.ok bytes

theorem secret_of_noText (found : h.member options "secret" = .str secret)
    (unread : secret.toString? = none) : Secrets.secret h options = .error .notText := by
  have refused : Argument.text (.str secret) = .error .notText := by
    simp only [Argument.text, Argument.bytes, Value.toText?, bind, Except.bind, unread]
  rw [Secrets.secret, found]
  simp only [Argument.optional, refused]
  rfl

theorem Offers.lifetime_ok (offers : Offers h options secret payload) :
    ∃ lifetime, Argument.optional Argument.int (h.member options "expires_in") = .ok lifetime := by
  rcases offers.lifetime with missing | ⟨i, given⟩
  · exact ⟨none, by rw [missing]; rfl⟩
  · exact ⟨some i, by rw [given]; rfl⟩

/-! ### Making a token -/

theorem claims_error_iff (sound : ∀ place, (h.table place).Sound) :
    claims h payload = .error fault ↔
      fault = .bridge .tooDeep ∧ Bridge.IsTooDeep h payload := by
  unfold claims
  by_cases missing : payload.isNil = true
  · have none : ∀ place, payload ≠ .table place := by
      rintro place rfl
      cases missing
    rw [if_pos missing]
    exact iff_of_false (by simp) fun ⟨_, deep⟩ => Bridge.not_tooDeep_of_no_table none deep
  · rw [if_neg missing, ← Bridge.json_error_iff sound]
    cases Argument.json h payload with
    | error given_up => simp [bind, Except.bind]
    | ok j => cases j <;> simp [bind, Except.bind, pure, Except.pure]

theorem ends_tokenEncode (sound : ∀ place, (h.table place).Sound)
    (offers : Offers h options secret payload) (now : Int) (rest : List Value) :
    Ends secret (Bridge.IsTooDeep h payload) (IsTokenOrMessage h secret payload now)
      (tokenEncode h now (.table options :: rest)) := by
  have table : Argument.table (Argument.get (.table options :: rest) 0) = .ok options := rfl
  unfold tokenEncode
  simp only [table, bind, Except.bind]
  cases reads : secret.toString?.isSome with
  | false =>
    rw [Option.isSome_eq_false_iff, Option.isNone_iff_eq_none] at reads
    rw [secret_of_noText offers.secret reads]
    exact .noText reads
  | true =>
    obtain ⟨lifetime, taken⟩ := offers.lifetime_ok
    rw [secret_of_text offers.secret reads, taken, offers.payload]
    dsimp only
    cases made : claims h payload with
    | error fault =>
      obtain ⟨rfl, deep⟩ := (claims_error_iff sound).mp made
      exact .tooDeep reads deep
    | ok found =>
      have flat : ¬ Bridge.IsTooDeep h payload := by
        intro deep
        rw [(claims_error_iff sound).mpr ⟨rfl, deep⟩] at made
        cases made
      dsimp only
      cases found with
      | none => exact .values reads flat (.inr ⟨_, rfl⟩)
      | some members =>
        dsimp only
        split
        · exact .values reads flat (.inr ⟨_, rfl⟩)
        · rename_i in_range
          split
          · rename_i token encoded
            exact .values reads flat
              (.inl ⟨members, _, token, made, not_not.mp in_range, encoded, rfl⟩)
          · exact .values reads flat (.inr ⟨_, rfl⟩)

/-! ### Reading a token -/

/-- The claims of a token and nil, or nil and a message, and the heap that they are in. -/
def IsClaimsOrMessage (h : Heap) (decoded : Except Token.Fault Token.Claims) (h' : Heap)
    (vs : List Value) : Prop :=
  (∃ claims v, decoded = .ok claims ∧ Bridge.ofJson (.obj claims) h = .ok (v, h') ∧
    vs = [v, .nil]) ∨
  ∃ fault, decoded = .error fault ∧ h' = h ∧ vs = [.nil, .text fault.message]

theorem text_token (token : String) : Argument.text (.text token) = .ok token := by
  simp only [Argument.text, Argument.bytes, Value.text, Value.toText?, bind, Except.bind,
    Bytes.toString?_ofString]

theorem tokenDecode_of_noText (token : String) (found : h.member options "secret" = .str secret)
    (unread : secret.toString? = none) (now : Int) (rest : List Value) :
    tokenDecode h now (.text token :: .table options :: rest) = .error .notText := by
  have first : Argument.text (Argument.get (.text token :: .table options :: rest) 0) = .ok token :=
    text_token token
  have second : Argument.table (Argument.get (.text token :: .table options :: rest) 1) =
      .ok options := rfl
  simp only [tokenDecode, first, second, secret_of_noText found unread, bind, Except.bind]

theorem tokenDecode_of_text (token : String) (found : h.member options "secret" = .str secret)
    (reads : secret.toString?.isSome) (now : Int) (rest : List Value) :
    tokenDecode h now (.text token :: .table options :: rest) =
      match Token.decode (Bytes.ofString token) secret now with
      | .error fault => .ok ([.nil, .text fault.message], h)
      | .ok claims => (Argument.ofJson (.obj claims) h).map fun there => ([there.1, .nil], there.2) := by
  have first : Argument.text (Argument.get (.text token :: .table options :: rest) 0) = .ok token :=
    text_token token
  have second : Argument.table (Argument.get (.text token :: .table options :: rest) 1) =
      .ok options := rfl
  simp only [tokenDecode, first, second, secret_of_text found reads, bind, Except.bind]
  rfl

theorem call_of_tokenDecode_error (e : Surroundings) (w : World) {args : List Value}
    (fails : tokenDecode h e.now args = .error fault) :
    Host.call e w h .tokenDecode args = ⟨.error fault, w, h⟩ := by
  simp only [Host.call, fails]

theorem call_of_tokenDecode (e : Surroundings) (w : World) {args vs : List Value} {h' : Heap}
    (gives : tokenDecode h e.now args = .ok (vs, h')) :
    Host.call e w h .tokenDecode args = ⟨.ok vs, w, h'⟩ := by
  simp only [Host.call, gives]

theorem ends_call_tokenDecode (e : Surroundings) (w : World) (token : String)
    (found : h.member options "secret" = .str secret) (rest : List Value) :
    let r := Host.call e w h .tokenDecode (.text token :: .table options :: rest)
    let decoded := Token.decode (Bytes.ofString token) secret e.now
    r.world = w ∧ (∀ fault, r.result = .error fault → r.heap = h) ∧
      Ends secret (∃ claims, decoded = .ok claims ∧ 64 < (Json.obj claims).reach)
        (IsClaimsOrMessage h decoded r.heap) r.result := by
  intro r decoded
  cases reads : secret.toString?.isSome with
  | false =>
    rw [Option.isSome_eq_false_iff, Option.isNone_iff_eq_none] at reads
    have eq : r = ⟨.error .notText, w, h⟩ :=
      call_of_tokenDecode_error e w (tokenDecode_of_noText token found reads e.now rest)
    rw [eq]
    exact ⟨rfl, fun _ _ => rfl, .noText reads⟩
  | true =>
    have decodes := tokenDecode_of_text token found reads e.now rest
    cases read : Token.decode (Bytes.ofString token) secret e.now with
    | error fault =>
      have flat : ¬ ∃ claims, decoded = .ok claims ∧ 64 < (Json.obj claims).reach := by
        rintro ⟨claims, accepted, -⟩
        cases accepted.symm.trans read
      rw [read] at decodes
      have eq : r = ⟨.ok [.nil, .text fault.message], w, h⟩ := call_of_tokenDecode e w decodes
      rw [eq]
      exact ⟨rfl, fun _ _ => rfl, .values reads flat (.inr ⟨fault, read, rfl, rfl⟩)⟩
    | ok claims =>
      have deep_iff : (∃ claims, decoded = .ok claims ∧ 64 < (Json.obj claims).reach) ↔
          64 < (Json.obj claims).reach := by
        constructor
        · rintro ⟨others, accepted, deep⟩
          cases accepted.symm.trans read
          exact deep
        · exact fun deep => ⟨claims, read, deep⟩
      rw [deep_iff, ← Bridge.maxDepth, ← Bridge.ofJson_error_iff (h := h) (f := .tooDeep)]
      rw [read] at decodes
      dsimp only [Argument.ofJson] at decodes
      cases brought : Bridge.ofJson (.obj claims) h with
      | error given_up =>
        cases given_up
        rw [brought] at decodes
        have eq : r = ⟨.error (.bridge .tooDeep), w, h⟩ := call_of_tokenDecode_error e w decodes
        rw [eq]
        exact ⟨rfl, fun _ _ => rfl, .tooDeep reads rfl⟩
      | ok there =>
        obtain ⟨v, h'⟩ := there
        rw [brought] at decodes
        have eq : r = ⟨.ok [v, .nil], w, h'⟩ := call_of_tokenDecode e w decodes
        rw [eq]
        refine ⟨rfl, fun _ raised => ?_, .values reads (by simp)
          (.inl ⟨claims, v, read, brought, rfl⟩)⟩
        cases raised

/-! ### Tokens that are too deep -/

theorem numbers_lists (n : Nat) : (Bridge.lists n).numbers = [] := by
  induction n with
  | zero => rfl
  | succ n ih => simp [Bridge.lists, Json.numbers, Json.numbersIn, ih]

/-- Claims that are more than a guest can hold, and not more than a token can carry. -/
def deepClaims : Token.Claims := [("deep", Bridge.lists 64)]

theorem reach_deepClaims : (Json.obj deepClaims).reach = 65 := by
  simp [deepClaims, Json.reach, Json.reachMembers, Bridge.reach_lists]

theorem visible_encode {claims : Token.Claims} {token : Bytes}
    (encoded : Token.encode claims secret = .ok token) :
    ∀ b ∈ token, Utf8.isVisibleByte b = true := by
  have digits : ∀ n < 64, Utf8.isVisibleByte (Base64Url.digit n) = true := by decide
  have segment (bytes : Bytes) : ∀ b ∈ Base64Url.encode bytes, Utf8.isVisibleByte b = true := by
    intro b member
    obtain ⟨n, below, rfl⟩ := Base64Url.mem_encode bytes b member
    exact digits n below
  have dot : Utf8.isVisibleByte Token.dot = true := by decide
  unfold Token.encode at encoded
  split at encoded
  · cases encoded
  · cases encoded
    intro b member
    simp only [List.mem_append, List.mem_cons] at member
    rcases member with (head | rfl | payload) | rfl | sign
    · exact segment _ b head
    · exact dot
    · exact segment _ b payload
    · exact dot
    · exact segment _ b sign

/-- Whoever knows the secret can sign claims that nest too deep. -/
theorem exists_deep_token (nonempty : secret ≠ []) :
    ∃ (token : String) (claims : Token.Claims),
      (∀ now, Token.decode (Bytes.ofString token) secret now = .ok claims) ∧
        64 < (Json.obj claims).reach := by
  obtain ⟨bytes, encoded, three⟩ := Token.encode_eq nonempty deepClaims
  obtain ⟨token, rfl⟩ := Utf8.exists_ofString (visible_encode encoded)
  have fits : Json.Fits 127 (.obj deepClaims) :=
    ⟨⟨by simp [deepClaims], Bridge.ordered_lists 64, trivial⟩,
      by simp [deepClaims, Json.depth, Json.depthMembers, Bridge.depth_lists]⟩
  have no_numbers : (Json.obj deepClaims).numbers = [] := by
    simp [deepClaims, Json.numbers, Json.numbersOf, numbers_lists]
  have carries : Token.Carries (Base64Url.encode (Json.obj deepClaims).encode) (.obj deepClaims) :=
    ⟨_, rfl, Json.parse_encode fits (by simp [no_numbers])⟩
  refine ⟨token, deepClaims, fun now => ?_, by rw [reach_deepClaims]; decide⟩
  have unexpired : Token.Unexpired deepClaims now := by
    intro n found
    cases found
  exact (Token.decode_eq_ok_iff nonempty).mpr ⟨_, _, three, Token.isHeader_header, carries, unexpired⟩

/-- The functions that make and read tokens answer with a pair, except where the secret is no text
or the bridge gives up: on a payload at which a chain of more than 64 tables begins, and on accepted
claims with more than 64 containers around their innermost value. Whoever knows a secret can sign
such claims. What raises an error changes nothing. -/
theorem pairs_unless_deep (e : Surroundings) (w : World) (sound : ∀ place, (h.table place).Sound) :
    (∀ options secret payload rest, Offers h options secret payload →
      let r := Host.call e w h .tokenEncode (.table options :: rest)
      r.world = w ∧ r.heap = h ∧
        Ends secret (Bridge.IsTooDeep h payload) (IsTokenOrMessage h secret payload e.now)
          r.result) ∧
    (∀ token options secret rest, h.member options "secret" = .str secret →
      let r := Host.call e w h .tokenDecode (.text token :: .table options :: rest)
      let decoded := Token.decode (Bytes.ofString token) secret e.now
      r.world = w ∧ (∀ fault, r.result = .error fault → r.heap = h) ∧
        Ends secret (∃ claims, decoded = .ok claims ∧ 64 < (Json.obj claims).reach)
          (IsClaimsOrMessage h decoded r.heap) r.result) ∧
    ∀ secret : Bytes, secret ≠ [] → ∃ (token : String) (claims : Token.Claims),
      (∀ now, Token.decode (Bytes.ofString token) secret now = .ok claims) ∧
        64 < (Json.obj claims).reach :=
  ⟨fun _ _ _ rest offers => ⟨rfl, rfl, ends_tokenEncode sound offers e.now rest⟩,
    fun token _ _ rest found => ends_call_tokenDecode e w token found rest,
    fun _ nonempty => exists_deep_token nonempty⟩

/-- A table of options that is its own payload. -/
def own : Heap :=
  { tables := #[.ofEntries [(.text "secret", .text "k"), (.text "payload", .table 0)]] }

theorem sound_own : ∀ place, (own.table place).Sound
  | 0 => Lua.Table.sound_ofEntries _
  | place + 1 => by
    have empty : own.table (place + 1) = {} := by simp [own, Heap.table]
    rw [empty]
    exact Lua.Table.sound_empty

theorem offers_own : Offers own 0 "k" (.table 0) :=
  ⟨by decide +kernel, by decide +kernel, .inl (by decide +kernel)⟩

theorem reads_k : ("k" : Bytes).toString?.isSome := by
  rw [Bytes.toString?_ofString]
  rfl

theorem chain_own (n : Nat) : Bridge.Chain own (n + 1) (.table 0) := by
  have there : (Value.text "payload", Value.table 0) ∈ (own.table 0).entries := by decide +kernel
  have leads : Bridge.Leads own 0 (.table 0) := .entry (by decide +kernel) (by trivial) there
  induction n with
  | zero => exact .last 0
  | succ n ih => exact .next leads ih

theorem pairs_unless_deep_of_own :
    (Host.call .bare {} own .tokenEncode [.table 0]).result = .error (.bridge .tooDeep) ∧
      ∃ token, (Host.call .bare {} own .tokenDecode [.text token, .table 0]).result =
        .error (.bridge .tooDeep) := by
  obtain ⟨encodes, decodes, exists_deep⟩ := pairs_unless_deep .bare {} sound_own
  obtain ⟨-, -, made⟩ := encodes 0 "k" (.table 0) [] offers_own
  obtain ⟨token, claims, accepted, deep⟩ := exists_deep "k" (by decide)
  obtain ⟨-, -, read⟩ := decodes token 0 "k" [] offers_own.secret
  exact ⟨made.raises reads_k ⟨65, by decide, chain_own 64⟩, token,
    read.raises reads_k ⟨claims, accepted _, deep⟩⟩

/-- Neither function answers with a pair whatever it is given, with a text as its secret. -/
theorem no_pair_for_deep :
    (¬ ∀ e w h options secret payload rest, (∀ place, (h.table place).Sound) →
      Offers h options (Bytes.ofString secret) payload →
      ∃ vs, (Host.call e w h .tokenEncode (.table options :: rest)).result = .ok vs) ∧
    ¬ ∀ e w h options secret token rest,
      h.member options "secret" = .text secret →
      ∃ vs, (Host.call e w h .tokenDecode (.text token :: .table options :: rest)).result =
        .ok vs := by
  constructor
  · intro never_raises
    have raises : tokenEncode own Surroundings.bare.now [.table 0] = .error (.bridge .tooDeep) :=
      (ends_tokenEncode sound_own offers_own Surroundings.bare.now []).raises reads_k
        ⟨65, by decide, chain_own 64⟩
    obtain ⟨vs, given⟩ := never_raises .bare {} own 0 "k" (.table 0) [] sound_own offers_own
    cases raises.symm.trans given
  · intro never_raises
    have nonempty : ("k" : Bytes) ≠ [] := by decide
    obtain ⟨token, claims, accepted, deep⟩ := exists_deep_token nonempty
    obtain ⟨-, -, read⟩ := ends_call_tokenDecode .bare {} token offers_own.secret []
    have raises := read.raises reads_k ⟨claims, accepted _, deep⟩
    obtain ⟨vs, given⟩ := never_raises .bare {} own 0 "k" token [] offers_own.secret
    cases raises.symm.trans given

end ScriptGate.Guest.Secrets

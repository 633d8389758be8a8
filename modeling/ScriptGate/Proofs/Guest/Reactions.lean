import ScriptGate.Guest.Host
import ScriptGate.Proofs.Lua.Library

/-!
# What the host leaves alone

Of all that a guest can ask for, a call of a function of the response changes what has been
declared, and a question for a file may open one. Every other reaction leaves both alone, and each
leaves the heap as quiet as it was.
-/

namespace ScriptGate

open Lua (Value Heap)
open Lua.Library (Gives)
open Json (bind_eq_ok)

/-! ### Heaps of the host -/

namespace Bridge

/-- What is brought into a heap leaves it as quiet. -/
def Settles {α : Type} (h : Heap) (r : Except Fault (α × Heap)) : Prop :=
  Gives (fun given => h.Quiet → given.2.Quiet) r

mutual

theorem settles_bring (v : Json) (depth : Nat) (h : Heap) : Settles h (bring depth v h) := by
  intro given brings quiet
  unfold bring at brings
  split at brings
  · cases brings
  · split at brings
    · exact Except.ok.inj brings ▸ quiet
    · exact Except.ok.inj brings ▸ quiet
    · exact Except.ok.inj brings ▸ quiet
    · exact Except.ok.inj brings ▸ quiet
    · rename_i items
      obtain ⟨inner, found, last⟩ := bind_eq_ok brings
      obtain rfl := Except.ok.inj last
      exact Lua.quiet_newTable.mpr (settles_bringItems items _ h inner found quiet)
    · rename_i members
      obtain ⟨inner, found, last⟩ := bind_eq_ok brings
      obtain rfl := Except.ok.inj last
      exact Lua.quiet_newTable.mpr (settles_bringMembers members _ h inner found quiet)

theorem settles_bringItems (items : List Json) (depth : Nat) (h : Heap) :
    Settles h (bringItems depth items h) := by
  intro given brings quiet
  match items with
  | [] => exact Except.ok.inj brings ▸ quiet
  | v :: rest =>
    unfold bringItems at brings
    obtain ⟨first, found, brings⟩ := bind_eq_ok brings
    obtain ⟨others, found', last⟩ := bind_eq_ok brings
    obtain rfl := Except.ok.inj last
    exact settles_bringItems rest _ _ others found' (settles_bring v _ h first found quiet)

theorem settles_bringMembers (members : List (String × Json)) (depth : Nat) (h : Heap) :
    Settles h (bringMembers depth members h) := by
  intro given brings quiet
  match members with
  | [] => exact Except.ok.inj brings ▸ quiet
  | (k, v) :: rest =>
    unfold bringMembers at brings
    obtain ⟨first, found, brings⟩ := bind_eq_ok brings
    obtain ⟨others, found', last⟩ := bind_eq_ok brings
    obtain rfl := Except.ok.inj last
    exact settles_bringMembers rest _ _ others found' (settles_bring v _ h first found quiet)

end

end Bridge

namespace Guest

variable {h : Heap}

/-- Surroundings with no parameters, no files and no network, in the first second. -/
def Surroundings.bare : Surroundings where
  call := ⟨{ session := "s" }, "m", .null, "m.lua"⟩
  seed := 0
  costs := ⟨4, 31, 10⟩
  now := 1
  network _ := .error ""
  file _ := none

theorem quiet_ofJson {v : Json} {given : Value × Heap} (quiet : h.Quiet)
    (brings : Argument.ofJson v h = .ok given) : given.2.Quiet := by
  unfold Argument.ofJson at brings
  cases brought : Bridge.ofJson v h with
  | error f =>
    rw [brought] at brings
    cases brings
  | ok inner =>
    rw [brought] at brings
    obtain rfl := Except.ok.inj brings
    exact Bridge.settles_bring v 0 h inner brought quiet

theorem quiet_parameter {params : Json} {path default : Value} {given : Value × Heap}
    (quiet : h.Quiet) (reads : Request.parameter params h path default = .ok given) :
    given.2.Quiet := by
  unfold Request.parameter at reads
  dsimp only at reads
  split at reads
  · exact quiet_ofJson quiet reads
  · obtain rfl := Except.ok.inj reads
    exact quiet

theorem quiet_header {c : Caller} {name default : Value} (quiet : h.Quiet) :
    (Request.header c h name default).2.Quiet := by
  unfold Request.header
  split <;> exact quiet

theorem quiet_toTable {rows : List Sql.Record} (quiet : h.Quiet) :
    (Records.toTable rows h).2.Quiet := by
  unfold Records.toTable
  refine Lua.quiet_newTable.mpr ?_
  exact List.foldlRecOn (motive := fun given : List Value × Heap => given.2.Quiet) rows _ quiet
    fun _ kept _ _ => kept

theorem quiet_build {c : Call} {seed : Int64} {costs : Secrets.Costs} {m : Module}
    (quiet : h.Quiet) : (m.build c seed costs h).2.Quiet := by
  cases m <;> exact quiet

theorem quiet_tokenDecode {now : Int} {args : List Value} {given : List Value × Heap}
    (quiet : h.Quiet) (reads : Secrets.tokenDecode h now args = .ok given) : given.2.Quiet := by
  obtain ⟨token, -, reads⟩ := bind_eq_ok reads
  obtain ⟨options, -, reads⟩ := bind_eq_ok reads
  obtain ⟨secret, -, reads⟩ := bind_eq_ok reads
  split at reads
  · obtain rfl := Except.ok.inj reads
    exact quiet
  · obtain ⟨inner, brings, reads⟩ := bind_eq_ok reads
    obtain rfl := Except.ok.inj reads
    exact quiet_ofJson quiet brings

/-! ### Reactions -/

namespace World

/-- What has been declared and what has been opened is the same in two worlds. -/
structure Spares (w last : World) : Prop where
  draft : last.draft = w.draft
  opened : last.opened = w.opened

theorem salt_eq (w : World) : ∃ bytes random, w.salt = (bytes, { w with random }) := ⟨_, _, rfl⟩

theorem spares_note (w : World) (l : Line) (log : Bool) :
    w.Spares (if log then w.note l else w) := by
  split <;> exact ⟨rfl, rfl⟩

end World

open World (Spares spares_note)

namespace Host

/-- A reaction that declares nothing, opens no file and leaves the heap as quiet. -/
structure Aside (w : World) (h : Heap) (r : Reaction) : Prop where
  world : w.Spares r.world
  heap : h.Quiet → r.heap.Quiet

variable {w : World}

theorem aside_same {result : Except Fault (List Value)} : Aside w h ⟨result, w, h⟩ :=
  ⟨⟨rfl, rfl⟩, id⟩

theorem spares_trace (e : Surroundings) (w : World) (c : Connection) (operation sql : String) :
    w.Spares (trace e w c operation sql) := spares_note ..

theorem aside_making {r : Except Fault (Value × Heap)}
    (settles : ∀ given, r = .ok given → h.Quiet → given.2.Quiet) : Aside w h (making w h r) := by
  cases r with
  | error f => exact aside_same
  | ok given => exact ⟨⟨rfl, rfl⟩, settles _ rfl⟩

theorem aside_outbound (e : Surroundings) (w : World) (h : Heap) (post : Bool)
    (args : List Value) : Aside w h (outbound e w h post args) := by
  unfold outbound
  split
  · exact aside_same
  · split
    · exact ⟨spares_note .., id⟩
    · exact ⟨spares_note .., id⟩

theorem aside_passwordHash (e : Surroundings) (w : World) (h : Heap) (args : List Value) :
    Aside w h (passwordHash e w h args) := by
  obtain ⟨bytes, random, equal⟩ := w.salt_eq
  unfold passwordHash
  dsimp only
  split
  · exact aside_same
  · rw [equal]
    exact ⟨⟨rfl, rfl⟩, id⟩

theorem aside_connect (w : World) (h : Heap) (args : List Value) :
    Aside w h (connect w h args) := by
  unfold connect
  dsimp only
  split
  · exact aside_same
  · split
    · exact aside_same
    · exact ⟨⟨rfl, rfl⟩, id⟩

theorem aside_exec (e : Surroundings) (w : World) (h : Heap) (args : List Value) :
    Aside w h (exec e w h args) := by
  unfold exec
  split
  · exact aside_same
  split
  · exact aside_same
  dsimp only
  split <;> exact ⟨⟨(spares_trace ..).draft, (spares_trace ..).opened⟩, id⟩

theorem aside_query (e : Surroundings) (w : World) (h : Heap) (args : List Value) :
    Aside w h (query e w h args) := by
  unfold query
  split
  · exact aside_same
  split
  · exact aside_same
  dsimp only
  split
  · exact ⟨spares_trace .., id⟩
  · exact ⟨spares_trace .., quiet_toTable⟩

theorem aside_close (w : World) (h : Heap) (args : List Value) : Aside w h (close w h args) := by
  unfold close
  split
  · exact aside_same
  · exact ⟨⟨rfl, rfl⟩, id⟩

theorem aside_wait (w : World) (h : Heap) (args : List Value) : Aside w h (wait w h args) := by
  unfold wait
  split
  · exact aside_same
  · dsimp only
    split <;> exact ⟨⟨rfl, rfl⟩, id⟩

theorem aside_check (w : World) (h : Heap) (args : List Value) : Aside w h (check w h args) := by
  unfold check
  split
  · exact aside_same
  · exact ⟨⟨rfl, rfl⟩, id⟩

theorem aside_member (w : World) (h : Heap) (o : Object) (key : Value) :
    Aside w h (member w h o key) := by
  unfold member
  dsimp only
  split
  · split <;> exact aside_same
  · split
    · exact aside_same
    · exact aside_same
    · split
      · exact ⟨⟨rfl, rfl⟩, id⟩
      · exact aside_same
    · exact aside_same
  · exact aside_same

variable {e : Surroundings} {f : Capability} {args : List Value}

/-- A function that is none of the response, or is not called as one. -/
theorem aside_call (silent : Declaration.read f h args = none) :
    Aside w h (call e w h f args) := by
  cases f with
  | loader m => exact aside_making fun _ built quiet => Except.ok.inj built ▸ quiet_build quiet
  | paramsGet => exact aside_making fun _ read quiet => quiet_parameter quiet read
  | headersGet => exact aside_making fun _ read quiet => Except.ok.inj read ▸ quiet_header quiet
  | logLine | logEvent => exact ⟨⟨rfl, rfl⟩, id⟩
  | passwordCompare | digest | tokenEncode => exact aside_same
  | httpGet | httpPost => exact aside_outbound ..
  | passwordHash => exact aside_passwordHash ..
  | tokenDecode =>
    simp only [call]
    split
    · exact aside_same
    · rename_i read
      exact ⟨⟨rfl, rfl⟩, fun quiet => quiet_tokenDecode quiet read⟩
  | storageConnect => exact aside_connect ..
  | connectionExec => exact aside_exec ..
  | connectionQuery => exact aside_query ..
  | connectionClose => exact aside_close ..
  | writeWait => exact aside_wait ..
  | writeCheck => exact aside_check ..
  | responseSet | responseSend | responseSetError | responseSendError => cases silent

theorem call_of_read {d : Except Fault Declaration} (reads : Declaration.read f h args = some d) :
    call e w h f args = declare w h d := by
  cases f with
  | responseSet | responseSend | responseSetError | responseSendError =>
    simp only [call, reads]
  | _ => cases reads

end Host

end Guest

end ScriptGate

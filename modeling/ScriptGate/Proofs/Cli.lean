import Mathlib.Tactic.Common
import ScriptGate.Cli
import ScriptGate.Proofs.Decimal.Numeral

/-!
# What the serving command makes of its arguments

The digits of a number are read as that number up to the bound, so every number of seconds that
fits a word reaches the configuration as it was given.
-/

namespace ScriptGate

namespace Cli

/-- An option and its value are read together. -/
theorem Form.scan_value {f : Form} {g next : Given} {o : Setting} {kind : Kind}
    {arg value : String} {rest : List String} (dashed : arg.startsWith "-" = true)
    (noHelp : helpNames.contains arg = false) (noEnd : arg ≠ "--") (found : f.setting? arg = some o)
    (valued : o.kind = some kind) (put : g.put o kind arg value = .ok next) :
    f.scan false false g (arg :: value :: rest) = f.scan false false next rest := by
  rw [Form.scan.eq_def]
  simp only [noHelp, dashed, noEnd, found, valued, put, Bool.not_false, Bool.and_true,
    Bool.false_eq_true, if_false, if_true]

theorem Form.scan_command {f : Form} {g : Given} {arg : String} {rest : List String}
    (plain : arg.startsWith "-" = false) (noHelp : helpNames.contains arg = false)
    (known : f.commands.any (·.1 = arg) = true) :
    f.scan false false g (arg :: rest) = .ok (false, { g with command := some (arg, rest) }) := by
  rw [Form.scan.eq_def]
  simp only [noHelp, plain, known, Bool.not_false, Bool.and_true, Bool.false_eq_true, if_false,
    if_true]

namespace Serve

def ttlSetting : Setting where
  long := "session-ttl-secs"
  kind := some (.number 64)
  about := "seconds before an unreleased session is evicted"

/-- What the command is given with a time to live and nothing else. -/
def givenTtl (seconds : UInt64) : Given where
  values := [(ttlSetting.long, toString seconds.toNat)]

theorem unsigned_seconds (seconds : UInt64) :
    Decimal.unsigned (1 <<< 64) (toString seconds.toNat) = .ok seconds.toNat :=
  Decimal.unsigned_toString seconds.toNat_lt

theorem read_ttl (seconds : UInt64) :
    form.read ["--session-ttl-secs", toString seconds.toNat] = .ok (givenTtl seconds) := by
  have put : ({} : Given).put ttlSetting (.number 64) "--session-ttl-secs"
      (toString seconds.toNat) = .ok (givenTtl seconds) := by
    rw [Given.put, Kind.fault?, unsigned_seconds]
    rfl
  have scanned : form.scan false false {} ["--session-ttl-secs", toString seconds.toNat] =
      form.scan false false (givenTtl seconds) [] :=
    Form.scan_value (by decide +kernel) (by decide) (by decide) (by decide +kernel) rfl put
  rw [Form.read, scanned]
  rfl

/-- The configuration with a time to live and nothing else set. -/
def configTtl (seconds : UInt64) (node : String) : Config where
  nodeId := node
  sessionTtl := .ofSeconds seconds

theorem validate_configTtl {seconds : UInt64} (positive : seconds ≠ 0) {node : String}
    (named : Text.isAllBlank node = false) : (configTtl seconds node).validate = .ok () := by
  have lasting : (Time.Span.ofSeconds seconds).isZero = false := by
    have : seconds.toNat ≠ 0 := fun zero => positive (UInt64.toNat_inj.mp zero)
    simp [Time.Span.isZero, Time.Span.ofSeconds, this]
  have routed : (configTtl seconds node).route.startsWith "/" = true := by
    change "/api/v1/rpc".startsWith "/" = true
    decide +kernel
  rw [Config.validate, routed]
  simp only [configTtl, named, lasting]
  rfl

theorem config_ttl {seconds : UInt64} (positive : seconds ≠ 0) {node : String}
    (named : Text.isAllBlank node = false) :
    config (givenTtl seconds) none node = .ok (configTtl seconds node) := by
  have number : (givenTtl seconds).number 64 "session-ttl-secs" 1800 = seconds.toNat := by
    have found : (givenTtl seconds).values.lookup "session-ttl-secs" =
        some (toString seconds.toNat) := List.lookup_cons_self
    rw [Given.number, found, Option.map_some, unsigned_seconds]
  have address : Net.SocketAddress.ofText? ((givenTtl seconds).value "bind" "0.0.0.0:8080") =
      some ⟨.v4 [0, 0, 0, 0], 0, 8080⟩ := by
    change Net.SocketAddress.ofText? "0.0.0.0:8080" = _
    decide +kernel
  rw [config]
  simp only [address, Serve.seconds, number, UInt64.ofNat_toNat]
  split
  · rfl
  · rename_i failed
    cases (validate_configTtl positive named).symm.trans failed

/-- Every positive number of seconds that fits a word is taken as the time to live. -/
theorem task_ttl {seconds : UInt64} (positive : seconds ≠ 0) {node : String}
    (named : Text.isAllBlank node = false) :
    task ["serve", "--session-ttl-secs", toString seconds.toNat] none node =
      .serve (configTtl seconds node) := by
  have read : Cli.form.read ["serve", "--session-ttl-secs", toString seconds.toNat] =
      .ok { command := some ("serve", ["--session-ttl-secs", toString seconds.toNat]) } := by
    rw [Form.read, Form.scan_command (by decide +kernel) (by decide) (by decide)]
    rfl
  rw [task, read]
  change command form ["--session-ttl-secs", toString seconds.toNat]
    (fun g => (config g none node).map .serve) = _
  rw [command, read_ttl]
  dsimp only
  rw [config_ttl positive named]
  rfl

end Serve

end Cli

end ScriptGate

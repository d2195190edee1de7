/-
Module: Remgr.Proofs.ConfigParts
Purpose: The parts of the configuration that operations of the console change independently of each
  other, which of them each operation writes, and that it leaves the others alone.
Trusted boundary: none
Main exports: Field, SameAt, Op.fields, Writes, Op.apply_writes, Writes.other, Writes.own,
  Contains, contains_of_apply, Contains.apply
-/
import Remgr.Console.Config

namespace Remgr.Console

open Remgr.Lib

/-- The parts that are written together. A section stands for its fields without those that have a
part of their own. -/
inductive Field where
  | console
  | consoleCert
  | passwordHash
  | easytier
  | easytierEnabled
  | stunTurn
  | stunTurnEnabled
  | stunTurnCert
  | rustdesk
  | rustdeskEnabled
  | frps
  | frpsEnabled
  | frpsToken
  | frpsCert
  | frpc
  | frpcEnabled
deriving Repr, DecidableEq

/-- Two configurations have the same values in a part. -/
def SameAt (a b : Config) : Field → Prop
  | .console =>
      a.console.port = b.console.port ∧ a.console.username = b.console.username ∧
        a.console.tls = b.console.tls ∧ a.console.sessionTtl = b.console.sessionTtl
  | .consoleCert => a.console.tlsCert = b.console.tlsCert ∧ a.console.tlsKey = b.console.tlsKey
  | .passwordHash => a.console.passwordHash = b.console.passwordHash
  | .easytier => { a.easytier with enabled := true } = { b.easytier with enabled := true }
  | .easytierEnabled => a.easytier.enabled = b.easytier.enabled
  | .stunTurn =>
      { a.stunTurn with enabled := true, certPath := "", keyPath := "" } =
        { b.stunTurn with enabled := true, certPath := "", keyPath := "" }
  | .stunTurnEnabled => a.stunTurn.enabled = b.stunTurn.enabled
  | .stunTurnCert =>
      a.stunTurn.certPath = b.stunTurn.certPath ∧ a.stunTurn.keyPath = b.stunTurn.keyPath
  | .rustdesk => { a.rustdesk with enabled := true } = { b.rustdesk with enabled := true }
  | .rustdeskEnabled => a.rustdesk.enabled = b.rustdesk.enabled
  | .frps =>
      { a.frps with enabled := true, token := "", tlsCertPath := none, tlsKeyPath := none } =
        { b.frps with enabled := true, token := "", tlsCertPath := none, tlsKeyPath := none }
  | .frpsEnabled => a.frps.enabled = b.frps.enabled
  | .frpsToken => a.frps.token = b.frps.token
  | .frpsCert =>
      a.frps.tlsCertPath = b.frps.tlsCertPath ∧ a.frps.tlsKeyPath = b.frps.tlsKeyPath
  | .frpc => { a.frpc with enabled := true } = { b.frpc with enabled := true }
  | .frpcEnabled => a.frpc.enabled = b.frpc.enabled

/-- The parts an operation writes. -/
def Op.fields : Op → List Field
  | edit (.console _) => [.console, .consoleCert]
  | edit (.service "easytier" _) => [.easytier, .easytierEnabled]
  | edit (.service "stun_turn" _) => [.stunTurn, .stunTurnEnabled, .stunTurnCert]
  | edit (.service "rustdesk" _) => [.rustdesk, .rustdeskEnabled]
  | edit (.service "frps" _) => [.frps, .frpsEnabled, .frpsToken, .frpsCert]
  | edit (.service "frpc" _) => [.frpc, .frpcEnabled]
  | edit (.service _ _) => []
  | edit (.cert "turn" _ _) => [.stunTurnCert]
  | edit (.cert "stun_turn" _ _) => [.stunTurnCert]
  | edit (.cert "frps" _ _) => [.frpsCert]
  | edit (.cert "console" _ _) => [.consoleCert]
  | edit (.cert _ _ _) => []
  | edit (.password _) => [.passwordHash]
  | enable "easytier" _ => [.easytierEnabled]
  | enable "stun_turn" _ => [.stunTurnEnabled]
  | enable "rustdesk" _ => [.rustdeskEnabled]
  | enable "frps" _ => [.frpsEnabled]
  | enable "frpc" _ => [.frpcEnabled]
  | enable _ _ => []
  | pin _ => [.frpsToken]

section Parts

variable {w : World} {a b c : Config} {f : Field}

theorem SameAt.refl (a : Config) (f : Field) : SameAt a a f := by
  cases f <;> simp [SameAt]

theorem SameAt.symm (same : SameAt a b f) : SameAt b a f := by
  cases f <;> simp only [SameAt] at same ⊢ <;> simp [same]

theorem SameAt.trans (first : SameAt a b f) (second : SameAt b c f) : SameAt a c f := by
  cases f <;> simp only [SameAt] at first second ⊢ <;> simp [first, second]

/-- A change that is read from a request first. -/
theorem bind_eq_ok {α β : Type} {result : Except String α} {g : α → Except String β} {y : β}
    (done : result >>= g = .ok y) : ∃ value, result = .ok value ∧ g value = .ok y := by
  cases result with
  | error e => cases done
  | ok value => exact ⟨value, rfl, done⟩

/-- What an accepted operation does: it replaces parts of the configuration by values of its own. -/
inductive Writes (w : World) : Op → (Config → Config) → Prop
  | console (wanted : ConsoleConfig) :
      Writes w (.edit (.console wanted)) fun cfg =>
        { cfg with console := { wanted with passwordHash := cfg.console.passwordHash } }
  | easytier {value : Json} {parsed : EasyTierConfig} (read : w.easytierFromValue value = .ok parsed)
      (address : ¬(IpAddr.parse parsed.apiAddr.toList).isNone = true) :
      Writes w (.edit (.service "easytier" value)) fun cfg => { cfg with easytier := parsed }
  | stunTurn {value : Json} {parsed : StunTurnConfig} (read : w.stunTurnFromValue value = .ok parsed) :
      Writes w (.edit (.service "stun_turn" value)) fun cfg => { cfg with stunTurn := parsed }
  | rustdesk {value : Json} {parsed : RustDeskConfig} (read : w.rustdeskFromValue value = .ok parsed) :
      Writes w (.edit (.service "rustdesk" value)) fun cfg => { cfg with rustdesk := parsed }
  | frps {value : Json} {parsed : FrpsSection} (read : w.frpsFromValue value = .ok parsed) :
      Writes w (.edit (.service "frps" value)) fun cfg => { cfg with frps := parsed }
  | frpc {value : Json} {parsed : Frpc.FrpcConfig} (read : w.frpcFromValue value = .ok parsed) :
      Writes w (.edit (.service "frpc" value)) fun cfg => { cfg with frpc := parsed }
  | turnCert {service certPath keyPath : String} (named : service = "turn" ∨ service = "stun_turn") :
      Writes w (.edit (.cert service certPath keyPath)) fun cfg =>
        { cfg with stunTurn := { cfg.stunTurn with certPath := certPath, keyPath := keyPath } }
  | frpsCert (certPath keyPath : String) :
      Writes w (.edit (.cert "frps" certPath keyPath)) fun cfg =>
        { cfg with
          frps := { cfg.frps with tlsCertPath := some certPath, tlsKeyPath := some keyPath } }
  | consoleCert (certPath keyPath : String) :
      Writes w (.edit (.cert "console" certPath keyPath)) fun cfg =>
        { cfg with console := { cfg.console with tlsCert := certPath, tlsKey := keyPath } }
  | noCert {service certPath keyPath : String}
      (unknown : (Op.edit (.cert service certPath keyPath)).fields = []) :
      Writes w (.edit (.cert service certPath keyPath)) id
  | password (newHash : String) :
      Writes w (.edit (.password newHash)) fun cfg =>
        { cfg with console := { cfg.console with passwordHash := newHash } }
  | enableEasytier (enabled : Bool) :
      Writes w (.enable "easytier" enabled) fun cfg =>
        { cfg with easytier := { cfg.easytier with enabled := enabled } }
  | enableStunTurn (enabled : Bool) :
      Writes w (.enable "stun_turn" enabled) fun cfg =>
        { cfg with stunTurn := { cfg.stunTurn with enabled := enabled } }
  | enableRustdesk (enabled : Bool) :
      Writes w (.enable "rustdesk" enabled) fun cfg =>
        { cfg with rustdesk := { cfg.rustdesk with enabled := enabled } }
  | enableFrps (enabled : Bool) :
      Writes w (.enable "frps" enabled) fun cfg =>
        { cfg with frps := { cfg.frps with enabled := enabled } }
  | enableFrpc (enabled : Bool) :
      Writes w (.enable "frpc" enabled) fun cfg =>
        { cfg with frpc := { cfg.frpc with enabled := enabled } }
  | pin (token : String) : Writes w (.pin token) fun cfg => cfg.pinToken token

theorem Edit.apply_writes {edit : Edit} (applied : edit.apply w a = .ok b) :
    ∃ write, Writes w (.edit edit) write ∧ b = write a := by
  unfold Edit.apply at applied
  split at applied
  · cases applied
    exact ⟨_, .console _, rfl⟩
  · rcases bind_eq_ok applied with ⟨parsed, read, done⟩
    split at done
    · cases done
    · next address =>
        cases done
        exact ⟨_, .easytier read address, rfl⟩
  · rcases bind_eq_ok applied with ⟨parsed, read, done⟩
    cases done
    exact ⟨_, .stunTurn read, rfl⟩
  · rcases bind_eq_ok applied with ⟨parsed, read, done⟩
    cases done
    exact ⟨_, .rustdesk read, rfl⟩
  · rcases bind_eq_ok applied with ⟨parsed, read, done⟩
    cases done
    exact ⟨_, .frps read, rfl⟩
  · rcases bind_eq_ok applied with ⟨parsed, read, done⟩
    cases done
    exact ⟨_, .frpc read, rfl⟩
  · cases applied
  · cases applied
    exact ⟨_, .turnCert (.inl rfl), rfl⟩
  · cases applied
    exact ⟨_, .turnCert (.inr rfl), rfl⟩
  · cases applied
    exact ⟨_, .frpsCert _ _, rfl⟩
  · cases applied
    exact ⟨_, .consoleCert _ _, rfl⟩
  · next service _ _ notTurn notStunTurn notFrps notConsole =>
      cases applied
      refine ⟨_, .noCert ?_, rfl⟩
      unfold Op.fields
      split <;> simp_all
  · cases applied
    exact ⟨_, .password _, rfl⟩

theorem Op.apply_writes {op : Op} (applied : op.apply w a = some b) :
    ∃ write, Writes w op write ∧ b = write a := by
  cases op with
  | edit edit =>
      cases result : edit.apply w a with
      | error e =>
          rw [Op.apply, result] at applied
          cases applied
      | ok cfg =>
          rw [Op.apply, result] at applied
          cases applied
          exact Edit.apply_writes result
  | enable service enabled =>
      simp only [Op.apply] at applied
      unfold Config.setEnabledFlag at applied
      split at applied <;> cases applied
      · exact ⟨_, .enableEasytier enabled, rfl⟩
      · exact ⟨_, .enableStunTurn enabled, rfl⟩
      · exact ⟨_, .enableRustdesk enabled, rfl⟩
      · exact ⟨_, .enableFrps enabled, rfl⟩
      · exact ⟨_, .enableFrpc enabled, rfl⟩
  | pin token =>
      cases applied
      exact ⟨_, .pin token, rfl⟩

/-- An operation that is accepted once is accepted whatever is in memory. -/
theorem Writes.apply {op : Op} {write : Config → Config} (writes : Writes w op write) (a : Config) :
    op.apply w a = some (write a) := by
  cases writes with
  | easytier read address =>
      simp only [Op.apply, Edit.apply, read, bind, Except.bind, if_neg address]
      rfl
  | stunTurn read | rustdesk read | frps read | frpc read =>
      simp only [Op.apply, Edit.apply, read, bind, Except.bind]
      rfl
  | turnCert named => rcases named with rfl | rfl <;> rfl
  | noCert unknown =>
      unfold Op.fields at unknown
      split at unknown <;> cases unknown
      all_goals simp_all [Op.apply, Edit.apply, Except.toOption]
  | _ => rfl

/-- An operation leaves the parts that are not its own alone. -/
theorem Writes.other {op : Op} {write : Config → Config} (writes : Writes w op write) (a : Config)
    (outside : f ∉ op.fields) : SameAt a (write a) f := by
  cases writes with
  | turnCert named =>
      rcases named with rfl | rfl <;> cases f <;> first
        | rfl
        | exact ⟨rfl, rfl⟩
        | exact ⟨rfl, rfl, rfl, rfl⟩
        | simp [Op.fields] at outside
  | noCert => exact SameAt.refl a f
  | _ =>
      cases f <;> first
        | rfl
        | exact ⟨rfl, rfl⟩
        | exact ⟨rfl, rfl, rfl, rfl⟩
        | simp [Op.fields] at outside

/-- What an operation writes does not depend on what was there. -/
theorem Writes.own {op : Op} {write : Config → Config} (writes : Writes w op write) (a b : Config)
    (inside : f ∈ op.fields) : SameAt (write a) (write b) f := by
  cases writes with
  | turnCert named =>
      rcases named with rfl | rfl <;> cases f <;> first
        | exact ⟨rfl, rfl⟩
        | simp [Op.fields] at inside
  | noCert unknown =>
      rw [unknown] at inside
      cases inside
  | _ =>
      cases f <;> first
        | rfl
        | exact ⟨rfl, rfl⟩
        | exact ⟨rfl, rfl, rfl, rfl⟩
        | simp [Op.fields] at inside

/-- Configurations with the same values in every part are equal. -/
theorem eq_of_sameAt (same : ∀ f, SameAt a b f) : a = b := by
  rcases a with ⟨⟨_, _, _, _, _, _, _⟩, easytier, stunTurn, rustdesk,
    ⟨⟨_, _, _, _, _, _, _⟩, _, _, _, _⟩, frpc⟩
  rcases b with ⟨⟨_, _, _, _, _, _, _⟩, easytier', stunTurn', rustdesk',
    ⟨⟨_, _, _, _, _, _, _⟩, _, _, _, _⟩, frpc'⟩
  have console := same .console
  have consoleCert := same .consoleCert
  have hash := same .passwordHash
  have frps := same .frps
  have frpsEnabled := same .frpsEnabled
  have frpsToken := same .frpsToken
  have frpsCert := same .frpsCert
  have sameEasytier : easytier = easytier' := by
    have rest := same .easytier
    have flag := same .easytierEnabled
    cases easytier
    cases easytier'
    simp_all [SameAt]
  have sameStunTurn : stunTurn = stunTurn' := by
    have rest := same .stunTurn
    have flag := same .stunTurnEnabled
    have cert := same .stunTurnCert
    cases stunTurn
    cases stunTurn'
    simp_all [SameAt]
  have sameRustdesk : rustdesk = rustdesk' := by
    have rest := same .rustdesk
    have flag := same .rustdeskEnabled
    cases rustdesk
    cases rustdesk'
    simp_all [SameAt]
  have sameFrpc : frpc = frpc' := by
    have rest := same .frpc
    have flag := same .frpcEnabled
    cases frpc
    cases frpc'
    simp_all [SameAt]
  clear same
  simp_all [SameAt]

/-- A configuration contains an operation when the operation would change nothing. -/
def Contains (w : World) (cfg : Config) (op : Op) : Prop := op.apply w cfg = some cfg

/-- The result of an operation contains it. -/
theorem contains_of_apply {op : Op} (applied : op.apply w a = some b) : Contains w b op := by
  rcases op.apply_writes applied with ⟨write, writes, rfl⟩
  have again : write (write a) = write a := by
    refine eq_of_sameAt fun f => ?_
    by_cases inside : f ∈ op.fields
    · exact writes.own (write a) a inside
    · exact (writes.other (write a) inside).symm
  rw [Contains, writes.apply, again]

/-- An operation keeps what operations on other parts have written. -/
theorem Contains.apply {op next : Op} (contains : Contains w a op) (applied : next.apply w a = some b)
    (apart : ∀ f ∈ op.fields, f ∉ next.fields) : Contains w b op := by
  rcases op.apply_writes contains with ⟨write, writes, already⟩
  rcases next.apply_writes applied with ⟨after, afterWrites, rfl⟩
  have kept : write (after a) = after a := by
    refine eq_of_sameAt fun f => ?_
    by_cases inside : f ∈ op.fields
    · have old : SameAt (write a) (after a) f := by
        rw [← already]
        exact afterWrites.other a (apart f inside)
      exact (writes.own (after a) a inside).trans old
    · exact (writes.other (after a) inside).symm
  rw [Contains, writes.apply, kept]

end Parts

end Remgr.Console

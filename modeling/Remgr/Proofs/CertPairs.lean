/-
Module: Remgr.Proofs.CertPairs
Purpose: The certificate and the key a service uses belong together as long as no call stages a file
  over one that another call has staged and not yet moved, and the second move never fails.
Trusted boundary: Remgr.Certs.Write
Main exports: Careful, Sound, pair_from_one_call
-/
import Remgr.Certs.Write

namespace Remgr.Certs

open Lib

/-- The staged certificate is this call's, from its opening to its move. -/
def Pc.stagesCert : Pc → Bool
  | .writeCert _ _ | .openKey | .writeKey _ _ | .renameCert => true
  | .openCert | .renameKey | .returned _ => false

/-- The staged key is this call's. -/
def Pc.stagesKey : Pc → Bool
  | .writeKey _ _ | .renameCert | .renameKey => true
  | .openCert | .writeCert _ _ | .openKey | .returned _ => false

/-- What the files hold for a call that has come to this point. -/
def Staged (files : Files FileName) (call : Call) : Pc → Prop
  | .openCert | .returned _ => True
  | .writeCert i offset =>
      offset ≤ call.certPem.length ∧ files.Holds .certNew i (call.certPem.take offset)
  | .openKey => ∃ i, files.Holds .certNew i call.certPem
  | .writeKey i offset =>
      (∃ j, files.Holds .certNew j call.certPem) ∧ offset ≤ call.keyPem.length ∧
        files.Holds .keyNew i (call.keyPem.take offset)
  | .renameCert => (∃ i, files.Holds .certNew i call.certPem) ∧ ∃ j, files.Holds .keyNew j call.keyPem
  | .renameKey => (∃ j, files.Holds .keyNew j call.keyPem) ∧ files.read .cert = some call.certPem

/-- A call has staged what it says, and only one that has moved its certificate, and will move its
key or has done so, has changed the live pair. -/
structure CallSound (files : Files FileName) (call : Call) : Prop where
  staged : Staged files call call.pc
  unaltered : call.altered = true → call.pc = .renameKey ∨ call.pc = .returned true

/-- A change of the files that spares what a call has staged. -/
theorem CallSound.frame {files files' : Files FileName} {call : Call} (sound : CallSound files call)
    (cert : call.pc.stagesCert = true → ∀ {i data}, files.Holds .certNew i data →
      files'.Holds .certNew i data)
    (key : call.pc.stagesKey = true → ∀ {i data}, files.Holds .keyNew i data →
      files'.Holds .keyNew i data)
    (read : call.pc = .renameKey → files'.read .cert = files.read .cert) : CallSound files' call := by
  refine ⟨?_, sound.unaltered⟩
  have staged := sound.staged
  cases here : call.pc with
  | openCert | returned => trivial
  | writeCert i offset =>
      rw [here] at staged cert
      exact ⟨staged.1, cert rfl staged.2⟩
  | openKey =>
      rw [here] at staged cert
      obtain ⟨i, holds⟩ := staged
      exact ⟨i, cert rfl holds⟩
  | writeKey i offset =>
      rw [here] at staged cert key
      obtain ⟨⟨j, holds⟩, fits, written⟩ := staged
      exact ⟨⟨j, cert rfl holds⟩, fits, key rfl written⟩
  | renameCert =>
      rw [here] at staged cert key
      obtain ⟨⟨i, holds⟩, ⟨j, holds'⟩⟩ := staged
      exact ⟨⟨i, cert rfl holds⟩, ⟨j, key rfl holds'⟩⟩
  | renameKey =>
      rw [here] at staged key
      obtain ⟨⟨j, holds⟩, installed⟩ := staged
      exact ⟨⟨j, key rfl holds⟩, (read here).trans installed⟩

/-- The live pair is the one from before any call, or both files are of one call. -/
def OneCall (s : State) : Prop :=
  live s.files = s.first ∨
    ∃ t call, s.calls t = some call ∧ live s.files = (some call.certPem, some call.keyPem)

/-- At most one call is at such a point. -/
def Alone (s : State) (stages : Pc → Bool) : Prop :=
  ∀ t u call other, s.calls t = some call → s.calls u = some other → stages call.pc = true →
    stages other.pc = true → t = u

structure Sound (s : State) : Prop where
  calls : ∀ {t call}, s.calls t = some call → CallSound s.files call
  certAlone : Alone s Pc.stagesCert
  keyAlone : Alone s Pc.stagesKey
  paired : (∀ t call, s.calls t = some call → call.pc ≠ .renameKey) → OneCall s

/-- No call opens a staging file that another call has staged, and the second move succeeds. -/
def Careful (s : State) : Input → Prop
  | .go t => ∀ call, s.calls t = some call →
      (call.pc = .openCert → ∀ u other, s.calls u = some other → other.pc.stagesCert = false) ∧
      (call.pc = .openKey → ∀ u other, s.calls u = some other → other.pc.stagesKey = false)
  | .fails t => ∀ call, s.calls t = some call → call.pc ≠ .renameKey
  | .begin _ _ _ _ | .wrote _ _ => True

/-! ### Steps of one call -/

/-- A call that has not moved its certificate has changed nothing. -/
theorem CallSound.not_altered {files : Files FileName} {call : Call} (sound : CallSound files call)
    (before : call.pc ≠ .renameKey) (running : call.pc ≠ .returned true) : call.altered = false := by
  cases altered : call.altered with
  | false => rfl
  | true => exact (sound.unaltered altered).elim (absurd · before) (absurd · running)

section Goto

variable {s : State} {t : Nat} {call : Call} {files : Files FileName} {pc : Pc}

theorem calls_goto {u : Nat} {other : Call} (found : (s.goto t call files pc).calls u = some other) :
    (u = t ∧ other = { call with pc := pc, altered := call.altered || live files ≠ live s.files }) ∨
      (u ≠ t ∧ s.calls u = some other) := by
  change Function.update s.calls t _ u = some other at found
  by_cases same : u = t
  · rw [same, Function.update_self] at found
    exact .inl ⟨same, (Option.some.inj found).symm⟩
  · rw [Function.update_of_ne same] at found
    exact .inr ⟨same, found⟩

theorem OneCall.goto (here : s.calls t = some call) (same : live files = live s.files)
    (one : OneCall s) : OneCall (s.goto t call files pc) := by
  rcases one with first | ⟨u, other, found, pair⟩
  · exact .inl (same.trans first)
  · by_cases mine : u = t
    · subst mine
      rw [here] at found
      cases found
      exact .inr ⟨u, _, Function.update_self .., same.trans pair⟩
    · exact .inr ⟨u, other, (Function.update_of_ne mine _ _).trans found, same.trans pair⟩

theorem Alone.goto {stages : Pc → Bool} (alone : Alone s stages)
    (others : stages pc = true → ∀ u other, u ≠ t → s.calls u = some other → stages other.pc = false) :
    Alone (s.goto t call files pc) stages := by
  intro v u mine other found found' here here'
  rcases calls_goto found with ⟨rfl, rfl⟩ | ⟨different, first⟩ <;>
    rcases calls_goto found' with ⟨rfl, rfl⟩ | ⟨different', second⟩
  · rfl
  · exact absurd here' (by rw [others here _ _ different' second]; decide)
  · exact absurd here (by rw [others here' _ _ different first]; decide)
  · exact alone _ _ _ _ first second here here'

theorem Alone.only {stages : Pc → Bool} (alone : Alone s stages) (here : s.calls t = some call)
    (mine : stages call.pc = true) (u : Nat) (other : Call) (different : u ≠ t)
    (found : s.calls u = some other) : stages other.pc = false := by
  cases also : stages other.pc with
  | false => rfl
  | true => exact absurd (alone _ _ _ _ found here also mine) different

/-- A step of one call: what it owes to itself, to the others and to the live pair. -/
theorem Sound.goto (sound : Sound s)
    (own : CallSound files { call with pc := pc, altered := call.altered || live files ≠ live s.files })
    (others : ∀ u other, u ≠ t → s.calls u = some other → CallSound files other)
    (cert : pc.stagesCert = true → ∀ u other, u ≠ t → s.calls u = some other →
      other.pc.stagesCert = false)
    (key : pc.stagesKey = true → ∀ u other, u ≠ t → s.calls u = some other →
      other.pc.stagesKey = false)
    (paired : pc ≠ .renameKey → (∀ u other, u ≠ t → s.calls u = some other → other.pc ≠ .renameKey) →
      OneCall (s.goto t call files pc)) : Sound (s.goto t call files pc) where
  calls found := by
    rcases calls_goto found with ⟨-, rfl⟩ | ⟨different, found⟩
    · exact own
    · exact others _ _ different found
  certAlone := sound.certAlone.goto cert
  keyAlone := sound.keyAlone.goto key
  paired none' := by
    refine paired (none' t _ (Function.update_self ..)) fun u other different found => ?_
    exact none' u other ((Function.update_of_ne different _ _).trans found)

/-- A step that leaves the live pair alone, of a call that has not moved its certificate. -/
theorem Sound.quiet (sound : Sound s) (here : s.calls t = some call) (before : call.pc ≠ .renameKey)
    (running : call.pc ≠ .returned true) (same : live files = live s.files)
    (own : Staged files call pc)
    (others : ∀ u other, u ≠ t → s.calls u = some other → CallSound files other)
    (cert : pc.stagesCert = true → ∀ u other, u ≠ t → s.calls u = some other →
      other.pc.stagesCert = false)
    (key : pc.stagesKey = true → ∀ u other, u ≠ t → s.calls u = some other →
      other.pc.stagesKey = false) : Sound (s.goto t call files pc) := by
  have still := (sound.calls here).not_altered before running
  refine sound.goto ⟨?_, ?_⟩ others cert key fun _ none' => ?_
  · cases pc <;> exact own
  · intro altered
    simp [still, same] at altered
  · refine OneCall.goto here same (sound.paired fun u other found => ?_)
    by_cases mine : u = t
    · subst mine
      rw [here] at found
      cases found
      exact before
    · exact none' u other mine found

/-- Opening or writing the staged certificate concerns no call that has not staged one. -/
theorem CallSound.spare_cert {files files' : Files FileName} {other : Call}
    (sound : CallSound files other) (outside : other.pc.stagesCert = false)
    (key : ∀ {i data}, files.Holds .keyNew i data → files'.Holds .keyNew i data)
    (read : files'.read .cert = files.read .cert) : CallSound files' other :=
  sound.frame (fun stages => absurd stages (by rw [outside]; decide)) (fun _ => key) fun _ => read

theorem CallSound.spare_key {files files' : Files FileName} {other : Call}
    (sound : CallSound files other) (outside : other.pc.stagesKey = false)
    (cert : ∀ {i data}, files.Holds .certNew i data → files'.Holds .certNew i data) :
    CallSound files' other := by
  refine sound.frame (fun _ => cert) (fun stages => absurd stages (by rw [outside]; decide)) ?_
  intro here
  rw [here] at outside
  cases outside

end Goto

/-! ### Every step -/

theorem live_openTruncate {files : Files FileName} {n : FileName} (cert : .cert ≠ n) (key : .key ≠ n) :
    live (files.openTruncate n).2 = live files := by
  rw [live, live, Files.read_openTruncate cert, Files.read_openTruncate key]

theorem live_writeAt {files : Files FileName} {n : FileName} {i : Inode} {offset : Nat}
    {chunk : List UInt8} (leads : files.names n = some i) (cert : .cert ≠ n) (key : .key ≠ n) :
    live (files.writeAt i offset chunk) = live files := by
  rw [live, live, Files.read_writeAt leads cert, Files.read_writeAt leads key]

section Steps

variable {s s' : State} {t : Nat} {call : Call}

theorem Sound.openCert (sound : Sound s) (here : s.calls t = some call) (pc : call.pc = .openCert)
    (free : ∀ u other, s.calls u = some other → other.pc.stagesCert = false) :
    Sound (s.goto t call (s.files.openTruncate .certNew).2
      (.writeCert (s.files.openTruncate .certNew).1 0)) := by
  refine sound.quiet here (by simp [pc]) (by simp [pc]) (live_openTruncate (by decide) (by decide))
    ⟨Nat.zero_le _, by simpa using Files.holds_openTruncate⟩ ?_
    (fun _ u other _ found => free u other found) (by simp [Pc.stagesKey])
  intro u other _ found
  exact (sound.calls found).spare_cert (free u other found) (Files.Holds.openTruncate · (by decide))
    (Files.read_openTruncate (by decide))

theorem Sound.writeCert (sound : Sound s) (here : s.calls t = some call) {i : Inode}
    {offset count : Nat} (pc : call.pc = .writeCert i offset) (fits : offset + count ≤ call.certPem.length) :
    Sound (s.goto t call (s.files.writeAt i offset ((call.certPem.drop offset).take count))
      (.writeCert i (offset + count))) := by
  have staged := (sound.calls here).staged
  rw [pc] at staged
  obtain ⟨inside, holds⟩ := staged
  have only := sound.certAlone.only here (by rw [pc]; rfl)
  refine sound.quiet here (by simp [pc]) (by simp [pc])
    (live_writeAt holds.1 (by decide) (by decide)) ⟨fits, ?_⟩ ?_ (fun _ => only)
    (by simp [Pc.stagesKey])
  · rw [List.take_add]
    exact holds.append (List.length_take_of_le inside)
  · intro u other different found
    exact (sound.calls found).spare_cert (only u other different found)
      (Files.Holds.writeAt · holds.1 (by decide)) (Files.read_writeAt holds.1 (by decide))

theorem Sound.certWritten (sound : Sound s) (here : s.calls t = some call) {i : Inode}
    (pc : call.pc = .writeCert i call.certPem.length) : Sound (s.goto t call s.files .openKey) := by
  have staged := (sound.calls here).staged
  rw [pc] at staged
  have only := sound.certAlone.only here (by rw [pc]; rfl)
  refine sound.quiet here (by simp [pc]) (by simp [pc]) rfl ⟨i, by simpa using staged.2⟩
    (fun u other _ found => sound.calls found) (fun _ => only) (by simp [Pc.stagesKey])

theorem Sound.openKey (sound : Sound s) (here : s.calls t = some call) (pc : call.pc = .openKey)
    (free : ∀ u other, s.calls u = some other → other.pc.stagesKey = false) :
    Sound (s.goto t call (s.files.openTruncate .keyNew).2
      (.writeKey (s.files.openTruncate .keyNew).1 0)) := by
  have staged := (sound.calls here).staged
  rw [pc] at staged
  obtain ⟨i, holds⟩ := staged
  have only := sound.certAlone.only here (by rw [pc]; rfl)
  refine sound.quiet here (by simp [pc]) (by simp [pc]) (live_openTruncate (by decide) (by decide))
    ⟨⟨i, holds.openTruncate (by decide)⟩, Nat.zero_le _, by simpa using Files.holds_openTruncate⟩ ?_
    (fun _ => only) (fun _ u other _ found => free u other found)
  intro u other _ found
  exact (sound.calls found).spare_key (free u other found) (Files.Holds.openTruncate · (by decide))

theorem Sound.writeKey (sound : Sound s) (here : s.calls t = some call) {i : Inode} {offset count : Nat}
    (pc : call.pc = .writeKey i offset) (fits : offset + count ≤ call.keyPem.length) :
    Sound (s.goto t call (s.files.writeAt i offset ((call.keyPem.drop offset).take count))
      (.writeKey i (offset + count))) := by
  have staged := (sound.calls here).staged
  rw [pc] at staged
  obtain ⟨⟨j, certHolds⟩, inside, holds⟩ := staged
  have onlyCert := sound.certAlone.only here (by rw [pc]; rfl)
  have onlyKey := sound.keyAlone.only here (by rw [pc]; rfl)
  refine sound.quiet here (by simp [pc]) (by simp [pc])
    (live_writeAt holds.1 (by decide) (by decide))
    ⟨⟨j, certHolds.writeAt holds.1 (by decide)⟩, fits, ?_⟩ ?_ (fun _ => onlyCert) (fun _ => onlyKey)
  · rw [List.take_add]
    exact holds.append (List.length_take_of_le inside)
  · intro u other different found
    exact (sound.calls found).spare_key (onlyKey u other different found)
      (Files.Holds.writeAt · holds.1 (by decide))

theorem Sound.keyWritten (sound : Sound s) (here : s.calls t = some call) {i : Inode}
    (pc : call.pc = .writeKey i call.keyPem.length) : Sound (s.goto t call s.files .renameCert) := by
  have staged := (sound.calls here).staged
  rw [pc] at staged
  exact sound.quiet here (by simp [pc]) (by simp [pc]) rfl ⟨staged.1, i, by simpa using staged.2.2⟩
    (fun u other _ found => sound.calls found)
    (fun _ => sound.certAlone.only here (by rw [pc]; rfl))
    (fun _ => sound.keyAlone.only here (by rw [pc]; rfl))

/-- The certificate is moved: from here on the call has to move its key. -/
theorem Sound.renameCert (sound : Sound s) (here : s.calls t = some call) (pc : call.pc = .renameCert) :
    ∃ files, s.files.rename .certNew .cert = some files ∧ Sound (s.goto t call files .renameKey) := by
  have staged := (sound.calls here).staged
  rw [pc] at staged
  obtain ⟨⟨i, certHolds⟩, ⟨j, keyHolds⟩⟩ := staged
  obtain ⟨files, renamed, read, kept⟩ := certHolds.rename .cert
  have onlyCert := sound.certAlone.only here (by rw [pc]; rfl)
  have onlyKey := sound.keyAlone.only here (by rw [pc]; rfl)
  refine ⟨files, renamed, sound.goto ⟨⟨⟨j, ?_⟩, read⟩, fun _ => .inl rfl⟩ ?_ (by simp [Pc.stagesCert])
    (fun _ => onlyKey) fun moved => absurd rfl moved⟩
  · exact (kept .keyNew (by decide) (by decide)).2 keyHolds
  · intro u other different found
    have outside := onlyKey u other different found
    refine (sound.calls found).frame ?_ ?_ ?_
    · intro stages
      rw [onlyCert u other different found] at stages
      cases stages
    · intro stages
      rw [outside] at stages
      cases stages
    · intro moved
      rw [moved] at outside
      cases outside

/-- The key is moved: the live pair is this call's. -/
theorem Sound.renameKey (sound : Sound s) (here : s.calls t = some call) (pc : call.pc = .renameKey) :
    ∃ files, s.files.rename .keyNew .key = some files ∧
      Sound (s.goto t call files (.returned true)) := by
  have staged := (sound.calls here).staged
  rw [pc] at staged
  obtain ⟨⟨j, holds⟩, installed⟩ := staged
  obtain ⟨files, renamed, read, kept⟩ := holds.rename .key
  have only := sound.keyAlone.only here (by rw [pc]; rfl)
  refine ⟨files, renamed, sound.goto ⟨trivial, fun _ => .inr rfl⟩ ?_ (by simp [Pc.stagesCert])
    (by simp [Pc.stagesKey]) fun _ _ => ?_⟩
  · intro u other different found
    exact (sound.calls found).spare_key (only u other different found)
      (kept .certNew (by decide) (by decide)).2
  · refine .inr ⟨t, _, Function.update_self .., ?_⟩
    change live files = _
    rw [live, read, (kept .cert (by decide) (by decide)).1, installed]

/-- A call that has not moved its certificate may fail. -/
theorem Sound.fails (sound : Sound s) (here : s.calls t = some call) (before : call.pc ≠ .renameKey)
    (running : call.pc ≠ .returned true) : Sound (s.goto t call s.files (.returned false)) :=
  sound.quiet here before running rfl trivial (fun _ _ _ found => sound.calls found)
    (by simp [Pc.stagesCert]) (by simp [Pc.stagesKey])

/-- A new call has staged nothing. -/
theorem Sound.begin (sound : Sound s) (unused : s.calls t = none)
    (idle : call.pc = .openCert ∨ call.pc = .returned false) (still : call.altered = false) :
    Sound { s with calls := Function.update s.calls t (some call) } := by
  have lookup : ∀ {u other}, Function.update s.calls t (some call) u = some other →
      (u = t ∧ other = call) ∨ s.calls u = some other := by
    intro u other found
    by_cases same : u = t
    · rw [same, Function.update_self] at found
      exact .inl ⟨same, (Option.some.inj found).symm⟩
    · rw [Function.update_of_ne same] at found
      exact .inr found
  have alone : ∀ {stages : Pc → Bool}, stages call.pc = false → Alone s stages →
      Alone { s with calls := Function.update s.calls t (some call) } stages := by
    intro stages outside before v u mine other found found' here here'
    rcases lookup found with ⟨-, rfl⟩ | first
    · cases outside.symm.trans here
    · rcases lookup found' with ⟨-, rfl⟩ | second
      · cases outside.symm.trans here'
      · exact before _ _ _ _ first second here here'
  refine ⟨fun {u other} found => ?_, alone ?_ sound.certAlone, alone ?_ sound.keyAlone, fun none' => ?_⟩
  · rcases lookup found with ⟨-, rfl⟩ | before
    · refine ⟨?_, fun altered => by cases still.symm.trans altered⟩
      rcases idle with same | same <;> rw [same] <;> trivial
    · exact sound.calls before
  · rcases idle with same | same <;> rw [same] <;> rfl
  · rcases idle with same | same <;> rw [same] <;> rfl
  · have kept : ∀ {u other}, s.calls u = some other →
        Function.update s.calls t (some call) u = some other := by
      intro u other found
      have different : u ≠ t := by
        rintro rfl
        cases unused.symm.trans found
      rw [Function.update_of_ne different, found]
    rcases sound.paired fun u other found => none' u other (kept found) with
      first | ⟨u, other, found, pair⟩
    · exact .inl first
    · exact .inr ⟨u, other, kept found, pair⟩

theorem Sound.callStep (sound : Sound s) (here : s.calls t = some call) (careful : Careful s (.go t))
    (moved : callStep s t call = some s') : Sound s' := by
  obtain ⟨freeCert, freeKey⟩ := careful call here
  unfold Certs.callStep at moved
  cases pc : call.pc with
  | openCert =>
      rw [pc] at moved
      cases moved
      exact sound.openCert here pc (freeCert pc)
  | writeCert i offset =>
      rw [pc] at moved
      obtain ⟨all, same⟩ := Option.ite_none_right_eq_some.mp moved
      cases same
      exact sound.certWritten here (all ▸ pc)
  | openKey =>
      rw [pc] at moved
      cases moved
      exact sound.openKey here pc (freeKey pc)
  | writeKey i offset =>
      rw [pc] at moved
      obtain ⟨all, same⟩ := Option.ite_none_right_eq_some.mp moved
      cases same
      exact sound.keyWritten here (all ▸ pc)
  | renameCert =>
      obtain ⟨files, renamed, next⟩ := sound.renameCert here pc
      rw [pc] at moved
      simp only [renamed] at moved
      cases moved
      exact next
  | renameKey =>
      obtain ⟨files, renamed, next⟩ := sound.renameKey here pc
      rw [pc] at moved
      simp only [renamed] at moved
      cases moved
      exact next
  | returned ok =>
      rw [pc] at moved
      cases moved

theorem Sound.writeStep (sound : Sound s) {count : Nat} (here : s.calls t = some call)
    (moved : writeStep s t count call = some s') : Sound s' := by
  unfold Certs.writeStep at moved
  split at moved
  · next i offset pc =>
      obtain ⟨fits, same⟩ := Option.ite_none_right_eq_some.mp moved
      cases same
      exact sound.writeCert here pc fits.2
  · next i offset pc =>
      obtain ⟨fits, same⟩ := Option.ite_none_right_eq_some.mp moved
      cases same
      exact sound.writeKey here pc fits.2
  · cases moved

theorem Sound.step {input : Input} (sound : Sound s) (careful : Careful s input)
    (moved : step s input = some s') : Sound s' := by
  cases input with
  | begin t service certPem keyPem =>
      obtain ⟨unused, same⟩ := Option.ite_none_right_eq_some.mp moved
      cases same
      refine sound.begin unused ?_ rfl
      dsimp only
      split
      · exact .inl rfl
      · exact .inr rfl
  | go t =>
      obtain ⟨call, here, moved⟩ := Option.bind_eq_some_iff.mp moved
      exact sound.callStep here careful moved
  | wrote t count =>
      obtain ⟨call, here, moved⟩ := Option.bind_eq_some_iff.mp moved
      exact sound.writeStep here moved
  | fails t =>
      obtain ⟨call, here, moved⟩ := Option.bind_eq_some_iff.mp moved
      have before := careful call here
      split at moved
      · cases moved
      · next running =>
          cases moved
          exact sound.fails here before (running true)

end Steps

/-- No call is in progress. -/
def Quiet (s : State) : Prop := ∀ t call, s.calls t = some call → ∃ ok, call.pc = .returned ok

/-- In every careful run: with no call in progress the live certificate and key are of one call, and
a call that returned an error has not changed them. -/
theorem pair_from_one_call (s : State) (run : certs.Reaches Careful s) :
    (Quiet s → OneCall s) ∧
      ∀ t call, s.calls t = some call → call.pc = .returned false → call.altered = false := by
  have sound : Sound s := by
    refine run.invariant (P := Sound) ?_ fun _ sound careful moved => sound.step careful moved
    rintro s ⟨none', first⟩
    refine ⟨?_, ?_, ?_, fun _ => .inl first.symm⟩
    · intro t call found
      rw [none'] at found
      cases found
    · intro t u call other found
      rw [none'] at found
      cases found
    · intro t u call other found
      rw [none'] at found
      cases found
  constructor
  · intro quiet
    refine sound.paired fun t call found moving => ?_
    obtain ⟨ok, done⟩ := quiet t call found
    cases moving.symm.trans done
  · intro t call found failed
    exact (sound.calls found).not_altered (by simp [failed]) (by simp [failed])

/-! ### Sample runs

Runs of calls numbered below a bound, so that what is said of every call can be evaluated. -/

def Input.task : Input → Nat
  | .begin t _ _ _ | .go t | .wrote t _ | .fails t => t

theorem step_other {s s' : State} {input : Input} (moved : step s input = some s') {u : Nat}
    (other : u ≠ input.task) : s'.calls u = s.calls u := by
  cases input with
  | begin t service certPem keyPem =>
      obtain ⟨-, same⟩ := Option.ite_none_right_eq_some.mp moved
      cases same
      exact Function.update_of_ne other _ _
  | go t =>
      obtain ⟨call, -, moved⟩ := Option.bind_eq_some_iff.mp moved
      unfold callStep at moved
      split at moved
      · cases moved
        exact Function.update_of_ne other _ _
      · obtain ⟨-, same⟩ := Option.ite_none_right_eq_some.mp moved
        cases same
        exact Function.update_of_ne other _ _
      · cases moved
        exact Function.update_of_ne other _ _
      · obtain ⟨-, same⟩ := Option.ite_none_right_eq_some.mp moved
        cases same
        exact Function.update_of_ne other _ _
      · split at moved <;> cases moved <;> exact Function.update_of_ne other _ _
      · split at moved <;> cases moved <;> exact Function.update_of_ne other _ _
      · cases moved
  | wrote t count =>
      obtain ⟨call, -, moved⟩ := Option.bind_eq_some_iff.mp moved
      unfold writeStep at moved
      split at moved
      · obtain ⟨-, same⟩ := Option.ite_none_right_eq_some.mp moved
        cases same
        exact Function.update_of_ne other _ _
      · obtain ⟨-, same⟩ := Option.ite_none_right_eq_some.mp moved
        cases same
        exact Function.update_of_ne other _ _
      · cases moved
  | fails t =>
      obtain ⟨call, -, moved⟩ := Option.bind_eq_some_iff.mp moved
      split at moved
      · cases moved
      · cases moved
        exact Function.update_of_ne other _ _

/-- There are no calls from `n` on. -/
def Below (n : Nat) (s : State) : Prop := ∀ u, n ≤ u → s.calls u = none

/-- A run whose steps pass a check, if the check permits them while the calls are below `n`. -/
theorem reaches_of_checks {n : Nat} {allowed : State → Input → Prop} {check : State → Input → Bool}
    (permits : ∀ {s input}, Below n s → check s input = true → allowed s input)
    {inputs : List Input} (small : ∀ input ∈ inputs, input.task < n) {s s' : State}
    (run : certs.Reaches allowed s) (below : Below n s)
    (done : System.execute (System.guarded check fun input s => step s input) inputs s = some s') :
    certs.Reaches allowed s' ∧ Below n s' := by
  refine System.reaches_of_guarded id ?_ permits run below done
  intro input inside s s' moved below u high
  have bound := small input inside
  rw [step_other moved (by omega), below u high]

/-- `p` holds of every call below `n`. -/
def allCalls (n : Nat) (s : State) (p : Call → Bool) : Bool :=
  (List.range n).all fun t => (s.calls t).all p

theorem of_allCalls {n : Nat} {s : State} {p : Call → Bool} (below : Below n s)
    (all : allCalls n s p = true) {t : Nat} {call : Call} (found : s.calls t = some call) :
    p call = true := by
  have small : t < n := by
    by_contra high
    rw [below t (by omega)] at found
    cases found
  have here := List.all_eq_true.mp all t (List.mem_range.mpr small)
  rwa [found] at here

def carefulCheck (n : Nat) (input : Input) (s : State) : Bool :=
  match input with
  | .go t =>
      (s.calls t).all fun call =>
        (call.pc ≠ .openCert || allCalls n s fun other => !other.pc.stagesCert) &&
          (call.pc ≠ .openKey || allCalls n s fun other => !other.pc.stagesKey)
  | .fails t => (s.calls t).all fun call => call.pc ≠ .renameKey
  | .begin _ _ _ _ | .wrote _ _ => true

theorem careful_of_check {n : Nat} {s : State} {input : Input} (below : Below n s)
    (checked : carefulCheck n input s = true) : Careful s input := by
  cases input with
  | begin | wrote => trivial
  | fails t =>
      intro call here
      rw [carefulCheck, here] at checked
      exact of_decide_eq_true checked
  | go t =>
      intro call here
      rw [carefulCheck, here] at checked
      obtain ⟨cert, key⟩ := Bool.and_eq_true_iff.mp checked
      constructor
      · intro pc u other found
        have all : allCalls n s (fun other => !other.pc.stagesCert) = true := by simpa [pc] using cert
        simpa using of_allCalls below all found
      · intro pc u other found
        have all : allCalls n s (fun other => !other.pc.stagesKey) = true := by simpa [pc] using key
        simpa using of_allCalls below all found

def sampleFiles : Files FileName where
  names
    | .cert => some 0
    | .key => some 1
    | .certNew | .keyNew => none
  data i := if i = 0 then bytes "old certificate" else bytes "old key"
  next := 2
  allocated := by
    intro n i leads
    cases n <;> cases leads <;> decide
  single := by
    intro m n i leads leads'
    cases m <;> cases n <;> cases leads <;> cases leads' <;> rfl

def sampleStart : State where
  files := sampleFiles
  calls _ := none
  first := live sampleFiles

def sampleCert (n : Nat) : String :=
  "BEGIN CERTIFICATE " ++ (if n = 0 then "A" else "B") ++ " END CERTIFICATE"

def sampleKey (n : Nat) : String := "PRIVATE KEY " ++ (if n = 0 then "A" else "B") ++ " END"

/-- A call up to the point where both files are staged. -/
def stages (n : Nat) : List Input :=
  [.begin n "turn" (sampleCert n) (sampleKey n), .go n, .wrote n 35, .go n, .go n, .wrote n 17, .go n]

def quietCheck (n : Nat) (s : State) : Bool :=
  allCalls n s fun call => call.pc = .returned true ∨ call.pc = .returned false

theorem quiet_of_check {n : Nat} {s : State} (below : Below n s) (checked : quietCheck n s = true) :
    Quiet s := by
  intro t call found
  rcases of_decide_eq_true (of_allCalls below checked found) with done | done
  · exact ⟨true, done⟩
  · exact ⟨false, done⟩

theorem sampleStart_below (n : Nat) : Below n sampleStart := fun _ _ => rfl

/-- One call installs its pair; the next fails while it writes its certificate. -/
theorem pair_from_one_call_kept :
    ∃ s, certs.Reaches Careful s ∧ Quiet s ∧ OneCall s ∧
      live s.files = (some (bytes (sampleCert 0)), some (bytes (sampleKey 0))) ∧
      ∀ call, s.calls 1 = some call → call.altered = false := by
  obtain ⟨s, done, shown⟩ := System.exists_of_any (by decide +kernel :
    (System.execute (System.guarded (fun s input => carefulCheck 2 input s) fun input s => step s input)
      (stages 0 ++
        [.go 0, .go 0, .begin 1 "turn" (sampleCert 1) (sampleKey 1), .go 1, .wrote 1 7, .fails 1])
      sampleStart).any (fun s => quietCheck 2 s && decide (live s.files =
        (some (bytes (sampleCert 0)), some (bytes (sampleKey 0))) ∧
          (s.calls 1).all (fun call => call.pc = .returned false) = true)) = true)
  obtain ⟨quiet, pair⟩ := Bool.and_eq_true_iff.mp shown
  obtain ⟨pair, failed⟩ := of_decide_eq_true pair
  obtain ⟨run, below⟩ := reaches_of_checks careful_of_check (by decide) (.start ⟨rfl, rfl⟩)
    (sampleStart_below 2) done
  have still := quiet_of_check below quiet
  obtain ⟨one, unaltered⟩ := pair_from_one_call s run
  refine ⟨s, run, still, one still, pair, fun call found => unaltered 1 call found ?_⟩
  rw [found] at failed
  exact of_decide_eq_true failed

def oneCallCheck (n : Nat) (s : State) : Bool :=
  live s.files = s.first ||
    !allCalls n s fun call => live s.files ≠ (some call.certPem, some call.keyPem)

theorem check_of_oneCall {n : Nat} {s : State} (below : Below n s) (one : OneCall s) :
    oneCallCheck n s = true := by
  rcases one with first | ⟨t, call, found, pair⟩
  · rw [oneCallCheck, decide_eq_true first, Bool.true_or]
  · cases all : allCalls n s fun call => live s.files ≠ (some call.certPem, some call.keyPem) with
    | false => rw [oneCallCheck, all, Bool.not_false, Bool.or_true]
    | true => exact absurd pair (of_decide_eq_true (of_allCalls below all found))

/-- Two uploads overlap: the second stages its certificate over the first one's, the first moves both
files and returns, and the second finds no certificate to move. The certificate is the second one's,
the key the first one's. -/
def overlapping : List Input :=
  stages 0 ++ [.begin 1 "turn" (sampleCert 1) (sampleKey 1), .go 1, .wrote 1 35, .go 1] ++
    [.go 0, .go 0] ++ [.go 1, .wrote 1 17, .go 1, .go 1]

theorem sampleRun (inputs : List Input) (check : State → Bool)
    (small : ∀ input ∈ inputs, input.task < 2)
    (shown : (System.execute (System.guarded (fun _ _ => true) fun input s => step s input) inputs
      sampleStart).any check = true) :
    ∃ s, certs.Reachable s ∧ Below 2 s ∧ check s = true := by
  obtain ⟨s, done, checked⟩ := System.exists_of_any shown
  obtain ⟨run, below⟩ := @reaches_of_checks 2 (fun _ _ => True) (fun _ _ => true)
    (fun _ _ => trivial) inputs small _ _ (.start ⟨rfl, rfl⟩) (sampleStart_below 2) done
  exact ⟨s, run, below, checked⟩

/-- Both ways in which the pair comes apart: uploads that overlap, and a failure between the moves. -/
theorem pair_comes_apart :
    (∃ s, certs.Reachable s ∧ Quiet s ∧ ¬ OneCall s ∧
      live s.files = (some (bytes (sampleCert 1)), some (bytes (sampleKey 0)))) ∧
    ∃ s call, certs.Reachable s ∧ Quiet s ∧ ¬ OneCall s ∧ s.calls 0 = some call ∧
      call.pc = .returned false ∧ call.altered = true := by
  constructor
  · obtain ⟨s, run, below, shown⟩ := sampleRun overlapping (fun s => quietCheck 2 s &&
      decide (oneCallCheck 2 s = false ∧
        live s.files = (some (bytes (sampleCert 1)), some (bytes (sampleKey 0)))))
      (by decide) (by decide +kernel)
    obtain ⟨quiet, apart⟩ := Bool.and_eq_true_iff.mp shown
    obtain ⟨mixed, pair⟩ := of_decide_eq_true apart
    refine ⟨s, run, quiet_of_check below quiet, fun one => ?_, pair⟩
    cases mixed.symm.trans (check_of_oneCall below one)
  · obtain ⟨s, run, below, shown⟩ := sampleRun (stages 0 ++ [.go 0, .fails 0]) (fun s =>
      quietCheck 2 s && decide (oneCallCheck 2 s = false) &&
        (s.calls 0).any fun call => call.pc = .returned false ∧ call.altered = true)
      (by decide) (by decide +kernel)
    obtain ⟨both, failed⟩ := Bool.and_eq_true_iff.mp shown
    obtain ⟨quiet, apart⟩ := Bool.and_eq_true_iff.mp both
    have mixed := of_decide_eq_true apart
    cases found : s.calls 0 with
    | none =>
        rw [found] at failed
        cases failed
    | some call =>
        rw [found] at failed
        have failed := of_decide_eq_true failed
        refine ⟨s, call, run, quiet_of_check below quiet, fun one => ?_, found, failed⟩
        cases mixed.symm.trans (check_of_oneCall below one)

end Remgr.Certs

/- module: SerialTiming/Laws/Ports
   digest: Which port names of the command line keep read within its table on Windows. -/

import SerialTiming.Receiver.PortNames

set_option autoImplicit false
set_option relaxedAutoImplicit false

namespace SerialTiming.Laws.Ports

open CLib.Objects CLib.Strings CLib.Buffers CLib.Numbers Receiver.PortNames

/-- A port that is called by its usual name is the port of that number. -/
def Selects (portname dstname : List Char) (p : Ports) : Prop :=
  ∀ n, 1 ≤ n → n ≤ 32 → (portname = comName n → p.source = comport n) ∧
    (dstname = comName n → ∀ port, p.destination = some port → port = comport n)

theorem names_comport {name : List Char} {m n : Nat} (first : Names name m) (second : Names name n) :
    comport m = comport n :=
  Except.ok.inj ((loadAt_names first).symm.trans (loadAt_names second))

theorem selects_ok {portname dstname : List Char} {m : Nat} (source : Names portname m)
    (destination : Option (List Char)) (exit : Exit)
    (tells : ∀ port, destination = some port → ∃ n, Names dstname n ∧ port = comport n) :
    Selects portname dstname ⟨comport m, destination, exit⟩ := by
  intro k low high
  constructor
  · rintro rfl
    exact names_comport source (names_comName low high)
  · rintro rfl port picked
    obtain ⟨n, names, rfl⟩ := tells port picked
    exact names_comport names (names_comName low high)

/-- The table of port names. Whatever the system answers, read stays within it and picks the ports by their numbers
exactly if the source name tells a port of the table, and the destination name too wherever the loop would begin with
a port to forward to. -/
theorem ports_within (ndebug : Bool) (portname dstname : PortName) (forward : Bool) (s : SetUp) :
    (∃ p, read ndebug portname.chars dstname.chars forward s = .ok p ∧ Selects portname.chars dstname.chars p) ↔
      (∃ n, Names portname.chars n) ∧ (forward = true → s.Succeeds ndebug → ∃ n, Names dstname.chars n) := by
  constructor
  · rintro ⟨p, result, _⟩
    have named : ∃ n, Names portname.chars n := by
      by_contra nameless
      unfold Receiver.PortNames.read at result
      rw [loadAt_nameless nameless, error_bind] at result
      cases result
    refine ⟨named, ?_⟩
    intro on succeeds
    obtain ⟨n, names⟩ := named
    rcases read_named ndebug dstname.chars forward s names with ⟨_, given⟩ | ⟨fails, _⟩
    · by_contra nameless
      rw [given, forwardPort, if_pos on, loadAt_nameless nameless, error_bind] at result
      cases result
    · exact absurd succeeds fails
  · rintro ⟨⟨n, names⟩, forwards⟩
    rcases read_named ndebug dstname.chars forward s names with ⟨succeeds, given⟩ | ⟨_, exit, given⟩
    · rw [given]
      cases forward with
      | false =>
          refine ⟨_, rfl, selects_ok names none .loops ?_⟩
          intro port picked
          cases picked
      | true =>
          obtain ⟨m, destination⟩ := forwards rfl succeeds
          refine ⟨⟨comport n, some (comport m), .loops⟩, ?_, selects_ok names _ _ ?_⟩
          · rw [forwardPort, if_pos rfl, loadAt_names destination, ok_bind]
          · intro port picked
            exact ⟨m, destination, (Option.some.inj picked).symm⟩
    · rw [given]
      refine ⟨_, rfl, selects_ok names none exit ?_⟩
      intro port picked
      cases picked

def com0 : PortName := ⟨"com0".toList, by decide, by decide⟩

/-- The number 0 leads to the cell before the table. -/
theorem com0_outside :
    read false com0.chars com0.chars false ⟨true, true, true, true, true, true, true⟩ = .error .outside ∧
      ¬ ∃ p, read false com0.chars com0.chars false ⟨true, true, true, true, true, true, true⟩ = .ok p ∧
        Selects com0.chars com0.chars p := by
  have outside : read false com0.chars com0.chars false ⟨true, true, true, true, true, true, true⟩ = .error .outside := by
    rfl
  refine ⟨outside, ?_⟩
  rintro ⟨p, result, _⟩
  rw [outside] at result
  cases result

end SerialTiming.Laws.Ports

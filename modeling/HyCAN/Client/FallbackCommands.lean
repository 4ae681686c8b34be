import HyCAN.Client.NetlinkClient
import HyCAN.Text.Shell
import Mathlib.Tactic.IntervalCases

/-! The command lines of the fallback, as the shell that `std::system` starts reads
them. Neither the client nor `Interface` looks at the name before. -/
namespace HyCAN

open Transition

namespace IpCommand

/-- The words that the command is meant to have. -/
def words (name : List UInt8) (rate : UInt32) : IpCommand → List (List UInt8)
  | .bitrate _ _ => [ascii "sudo", ascii "ip", ascii "link", ascii "set", name, ascii "type",
      ascii "can", ascii "bitrate", Decimal.digits rate.toNat]
  | .state _ up => [ascii "sudo", ascii "ip", ascii "link", ascii "set", name,
      if up then ascii "up" else ascii "down"]

/-- The shell gets the text up to its first NUL. -/
def shellWords (command : IpCommand) : Option (List (List UInt8)) :=
  Shell.words (CString.read command.text)

/-- For the shell this is one simple command with just the words that are meant. -/
def KeepsName (name : List UInt8) (rate : UInt32) (command : IpCommand) : Prop :=
  command.shellWords = some (command.words name rate)

section Words

variable {name : List UInt8} {rate : UInt32}

theorem front_words : ascii "sudo ip link set " = ascii "sudo" ++ 32 :: (ascii "ip" ++
    32 :: (ascii "link" ++ 32 :: (ascii "set" ++ [32]))) := by
  decide

/-- The text has the words side by side, and no quotes. -/
theorem text_bitrate (name : List UInt8) (rate : UInt32) :
    (bitrate name rate).text = Shell.unquoted ((bitrate name rate).words name rate) := by
  have hBack : ascii " type can bitrate " = 32 :: (ascii "type" ++ 32 :: (ascii "can" ++
      32 :: (ascii "bitrate" ++ [32]))) := by decide
  simp [text, words, front_words, hBack, Shell.unquoted]

theorem text_state (name : List UInt8) (up : Bool) (rate : UInt32) :
    (state name up).text = Shell.unquoted ((state name up).words name rate) := by
  cases up with
  | false =>
      have hBack : ascii " down" = 32 :: ascii "down" := by decide
      simp [text, words, front_words, hBack, Shell.unquoted]
  | true =>
      have hBack : ascii " up" = 32 :: ascii "up" := by decide
      simp [text, words, front_words, hBack, Shell.unquoted]

theorem kind_of_mem_digits {n : Nat} {byte : UInt8} (hMem : byte ∈ Decimal.digits n) :
    Shell.kind byte = .plain := by
  obtain ⟨hLower, hUpper⟩ := Decimal.mem_digits hMem
  have hByte : byte = UInt8.ofNat byte.toNat := by simp
  generalize byte.toNat = code at hByte hLower hUpper
  subst hByte
  interval_cases code <;> decide

theorem plain_digits (n : Nat) : Shell.Plain (Decimal.digits n) ∧ 0 ∉ Decimal.digits n := by
  have hNe : Decimal.digits n ≠ [] := by simp [Decimal.digits]
  refine ⟨⟨?_, ?_⟩, ?_⟩
  · obtain ⟨byte, hHead⟩ := Option.ne_none_iff_exists'.mp (mt List.head?_eq_none_iff.mp hNe)
    rw [hHead, Option.map_some, kind_of_mem_digits (List.mem_of_mem_head? hHead)]
  · intro byte hMem
    rw [Shell.Literal, kind_of_mem_digits hMem]
    decide
  · intro hMem
    exact absurd (Decimal.mem_digits hMem).1 (by decide)

/-- The command keeps the name exactly if the name needs no quotes. -/
theorem keepsName_bitrate_iff :
    (bitrate name rate).KeepsName name rate ↔ Shell.Plain name ∧ 0 ∉ name := by
  rw [KeepsName, shellWords, text_bitrate, Shell.words_unquoted_iff]
  constructor
  · intro hAll
    exact hAll name (by simp [words])
  · intro hName word hMem
    simp only [words, List.mem_cons, List.not_mem_nil, or_false] at hMem
    rcases hMem with rfl | rfl | rfl | rfl | rfl | rfl | rfl | rfl | rfl
    case inr.inr.inr.inr.inl => exact hName
    case inr.inr.inr.inr.inr.inr.inr.inr => exact plain_digits _
    all_goals decide +kernel

theorem keepsName_state_iff {up : Bool} :
    (state name up).KeepsName name rate ↔ Shell.Plain name ∧ 0 ∉ name := by
  rw [KeepsName, shellWords, text_state name up rate, Shell.words_unquoted_iff]
  constructor
  · intro hAll
    exact hAll name (by simp [words])
  · intro hName word hMem
    simp only [words, List.mem_cons, List.not_mem_nil, or_false] at hMem
    rcases hMem with rfl | rfl | rfl | rfl | rfl | rfl
    case inr.inr.inr.inr.inl => exact hName
    case inr.inr.inr.inr.inr => cases up <;> decide +kernel
    all_goals decide +kernel

end Words

end IpCommand

/-- If the call runs this command, then it keeps the name. -/
def RunsWhole (name : List UInt8) (bitrate : UInt32) (call : ClientCall) : Prop :=
  ∀ command, call = .system command → command.KeepsName name bitrate

theorem runsWhole_system_iff {name : List UInt8} {bitrate : UInt32} {command : IpCommand} :
    RunsWhole name bitrate (.system command) ↔ command.KeepsName name bitrate := by
  constructor
  · intro hAll
    exact hAll command rfl
  · rintro hKeeps same hSame
    cases hSame
    exact hKeeps

/-- The fallback is never refused, so the name decides: all command lines of the call keep
it exactly if it needs no quotes and has no NUL. -/
theorem fallback_keeps_name_iff (view : StringView) (up : Bool) (bitrate : UInt32) :
    (NetlinkClient.setInterfaceState view up bitrate).Uses (RunsWhole view.text bitrate) ↔
      Shell.Plain view.text ∧ 0 ∉ view.text := by
  have hRequest : RunsWhole view.text bitrate
      (.sendRequest (NetlinkClient.stateRequest view up bitrate)) := by
    rintro command hSame
    cases hSame
  rw [NetlinkClient.uses_setInterfaceState_iff, and_iff_right hRequest,
    NetlinkClient.uses_fallbackSystemCall_iff, runsWhole_system_iff, runsWhole_system_iff,
    IpCommand.keepsName_bitrate_iff, IpCommand.keepsName_state_iff]
  exact and_iff_right_of_imp fun hName _ _ => hName

/-- A name from a configuration file reboots the machine. -/
theorem name_splits_command :
    ¬∀ (view : StringView) (up : Bool) (bitrate : UInt32),
      (NetlinkClient.setInterfaceState view up bitrate).Uses (RunsWhole view.text bitrate) := by
  intro hClaim
  have hUses := hClaim (.ofString (ascii "can0; reboot")) false 0
  rw [NetlinkClient.uses_setInterfaceState_iff, NetlinkClient.uses_fallbackSystemCall_iff] at hUses
  have hKeeps := runsWhole_system_iff.mp hUses.2.2
  exact absurd (IpCommand.keepsName_state_iff.mp hKeeps).1 (by decide)

end HyCAN

import Testbed.Host.Result
import Testbed.Proofs.Text.IllFormed
import Testbed.Proofs.Text.Line

/-!
# The output of a process

A result keeps what a process wrote.  Its text is the one whose bytes they are, if there is one, and
has a replacement character in place of each maximal subpart that is ill-formed otherwise; its lines
give the text back when each has its terminator again.
-/

namespace Testbed.Host

open Text.Utf8 (Decomposes Span)

/-- A text and its lines are what some bytes say. -/
structure Keeps (bytes : Text.Bytes) (text : String) (lines : List String) : Prop where
  decoded : ∀ s : String, s.toUTF8.data.toList = bytes → text = s
  decomposition : ∃! spans, Decomposes bytes spans
  replaced : ∀ spans, Decomposes bytes spans → text = String.ofList (spans.map Span.char)
  layout : ∃! written, Text.Layout text written
  terminated : ∀ written, Text.Layout text written → lines = written.map (·.1)
  not_lineFeed : ∀ line ∈ lines, '\n' ∉ line.toList

theorem keeps_decodeLossy (bytes : Text.Bytes) :
    Keeps bytes (Text.Utf8.decodeLossy bytes) (Text.lines (Text.Utf8.decodeLossy bytes)) := by
  obtain ⟨spans, hspans, -⟩ := Text.Utf8.exists_decomposes bytes
  obtain ⟨written, hwritten, hunique⟩ :=
    Text.existsUnique_layout (Text.Utf8.decodeLossy bytes)
  refine ⟨?_, ⟨spans, hspans, fun _ => hspans.unique⟩, fun _ => Text.Utf8.decodeLossy_eq,
    ⟨written, hwritten, hunique⟩, fun _ h => h.lines_eq, ?_⟩
  · rintro s rfl
    rw [← Text.Utf8.encode_eq_toUTF8, Text.Utf8.decodeLossy_encode]
  · rw [hwritten.lines_eq]
    intro line hline
    obtain ⟨entry, hentry, rfl⟩ := List.mem_map.mp hline
    exact hwritten.not_lineFeed entry hentry

/-- A process ended by itself with an exit code: the low seven bits of its status hold no signal,
and the byte above bit seven holds the code. -/
def Output.ExitedWith (o : Output) (code : Nat) : Prop :=
  o.waitStatus % 128 = 0 ∧ o.waitStatus / 256 % 256 = code

/-- A signal ended the process. -/
def Output.EndedBy (o : Output) (signal : Nat) : Prop :=
  o.waitStatus % 128 = signal ∧ signal ≠ 0

theorem Output.exitCode?_eq_some_iff {o : Output} {code : Nat} :
    o.exitCode? = some code ↔ o.ExitedWith code := by
  simp [exitCode?, ExitedWith]

theorem Output.exitCode?_eq_none {o : Output} {signal : Nat} (h : o.EndedBy signal) :
    o.exitCode? = none := by
  have hsignal : o.waitStatus % 128 ≠ 0 := by
    rw [h.1]
    exact h.2
  rw [exitCode?, if_neg hsignal]

theorem failed_iff (o : Output) : (Result.ofOutput o).failed = true ↔ ¬o.ExitedWith 0 := by
  rw [← Output.exitCode?_eq_some_iff, Result.ofOutput]
  cases o.exitCode? with
  | none => simp
  | some code => simp

/-- The result of a process keeps both of its streams, and it failed unless the process exited with
the code 0. -/
theorem ofOutput_keeps (o : Output) :
    Keeps o.stdout (Result.ofOutput o).stdout (Result.ofOutput o).stdoutLines ∧
    Keeps o.stderr (Result.ofOutput o).stderr (Result.ofOutput o).stderrLines ∧
    ((Result.ofOutput o).failed = true ↔ ¬o.ExitedWith 0) ∧
    (∀ code, o.ExitedWith code → (Result.ofOutput o).code = code) ∧
    ∀ signal, o.EndedBy signal →
      (Result.ofOutput o).failed = true ∧ (Result.ofOutput o).code = -1 := by
  refine ⟨keeps_decodeLossy o.stdout, keeps_decodeLossy o.stderr, failed_iff o, ?_, ?_⟩
  · intro code hcode
    rw [Result.ofOutput, Output.exitCode?_eq_some_iff.mpr hcode]
  · intro signal hsignal
    rw [Result.ofOutput, Output.exitCode?_eq_none hsignal]
    exact ⟨rfl, rfl⟩

end Testbed.Host

import Mathlib
import ParenCall.PromptSession

/-!
# Independent lines of a prompt session

A session keeps one buffer and one transcript for all its rounds, but neither
has an influence on what a later round writes: the buffer is emptied before it
is read into, and the transcript only grows.  So a round adds the prompt and the
answer to one line, whatever came before, and a session on whole lines and more
input after them is the one session followed by the other.

A round looks no further than its line either.  So it does not matter whether a
session has all of its input from the beginning or gets it line by line.
-/

namespace ParenCall

section Lines

theorem decide_ne_lineFeed {line : List UInt8} (single : lineFeed ∉ line) :
    ∀ byte ∈ line, decide (byte ≠ lineFeed) = true := by
  intro byte member
  have differs : byte ≠ lineFeed := fun same => single (same ▸ member)
  simpa using differs

theorem line_of_notMem {line : List UInt8} (single : lineFeed ∉ line) :
    firstLine line = line ∧ afterLine line = [] := by
  have others := decide_ne_lineFeed single
  have dropped := List.dropWhile_eq_nil_iff.mpr others
  rw [firstLine, afterLine, dropped, List.takeWhile_eq_self_iff.mpr others]
  simp

theorem line_append_lineFeed {line : List UInt8} (single : lineFeed ∉ line)
    (rest : List UInt8) :
    firstLine (line ++ lineFeed :: rest) = line ++ [lineFeed] ∧
      afterLine (line ++ lineFeed :: rest) = rest := by
  have others := decide_ne_lineFeed single
  rw [firstLine, afterLine, List.takeWhile_append_of_pos others,
    List.dropWhile_append_of_pos others]
  simp

/-- Whole lines are none, or a first line and whole lines after it. -/
theorem exists_line_of_whole {bytes : List UInt8}
    (whole : bytes = [] ∨ bytes.getLast? = some lineFeed) :
    bytes = [] ∨ ∃ line rest, lineFeed ∉ line ∧
      bytes = line ++ lineFeed :: rest ∧
        (rest = [] ∨ rest.getLast? = some lineFeed) := by
  rcases whole with rfl | feedsLast
  · exact Or.inl rfl
  right
  obtain ⟨line, rest, rfl, single⟩ :=
    List.eq_append_cons_of_mem (List.mem_of_getLast? feedsLast)
  refine ⟨line, rest, single, rfl, ?_⟩
  cases rest with
  | nil => exact Or.inl rfl
  | cons byte rest =>
      rw [List.getLast?_append, List.getLast?_cons_cons] at feedsLast
      right
      cases last : (byte :: rest).getLast? with
      | none => simp at last
      | some other => simpa [last] using feedsLast

theorem firstLine_ne_nil {bytes : List UInt8} (nonempty : bytes ≠ []) :
    firstLine bytes ≠ [] := by
  intro empty
  obtain ⟨byte, others, rfl⟩ := List.exists_cons_of_ne_nil nonempty
  have whole := firstLine_append_afterLine (byte :: others)
  have shorter := length_afterLine_lt byte others
  rw [empty, List.nil_append] at whole
  rw [whole] at shorter
  omega

/-- A first line is a line by itself. -/
theorem line_firstLine (bytes : List UInt8) :
    firstLine (firstLine bytes) = firstLine bytes ∧
      afterLine (firstLine bytes) = [] := by
  by_cases feeds : lineFeed ∈ bytes
  · obtain ⟨line, rest, rfl, single⟩ := List.eq_append_cons_of_mem feeds
    rw [(line_append_lineFeed single rest).1]
    exact line_append_lineFeed single []
  · rw [(line_of_notMem feeds).1]
    exact line_of_notMem feeds

/-- Trimming cuts a text at its end, in front of all the carriage returns and
line feeds that stand there. -/
theorem trimLineEnd_eq_iff (text trimmed : String) :
    trimLineEnd text = trimmed ↔
      ∃ ending : String, text = trimmed ++ ending ∧
        (∀ character ∈ ending.toList, character = '\r' ∨ character = '\n') ∧
        ∀ last ∈ trimmed.toList.getLast?, last ≠ '\r' ∧ last ≠ '\n' := by
  have trims : trimLineEnd text =
      String.ofList (text.toList.rdropWhile endsLine) := rfl
  rw [trims]
  constructor
  · rintro rfl
    refine ⟨String.ofList (text.toList.rtakeWhile endsLine), ?_, ?_, ?_⟩
    · rw [← String.ofList_append, List.rdropWhile_append_rtakeWhile,
        String.ofList_toList]
    · intro character member
      rw [String.toList_ofList] at member
      simpa [endsLine] using List.mem_rtakeWhile_imp member
    · intro last isLast
      rw [String.toList_ofList] at isLast
      obtain ⟨nonempty, rfl⟩ := List.mem_getLast?_eq_getLast isLast
      simpa [endsLine] using
        List.rdropWhile_last_not endsLine text.toList nonempty
  · rintro ⟨ending, rfl, endsAll, endsNot⟩
    have dropped : ∀ character ∈ ending.toList.reverse,
        endsLine character = true := by
      simpa [endsLine] using endsAll
    have kept : trimmed.toList.rdropWhile endsLine = trimmed.toList := by
      rw [List.rdropWhile_eq_self_iff]
      intro nonempty
      simpa [endsLine] using endsNot _ (List.getLast_mem_getLast? nonempty)
    rw [String.toList_append, List.rdropWhile, List.reverse_append,
      List.dropWhile_append_of_pos dropped, ← List.rdropWhile, kept,
      String.ofList_toList]

end Lines

namespace PromptSession

theorem readLine_of_input_nil {session : PromptSession}
    (atEnd : session.input = []) :
    session.readLine = (.endOfInput, session) := by
  rw [readLine, atEnd]

theorem readLine_of_invalid {session : PromptSession}
    (inside : session.input ≠ [])
    (invalid : String.fromUTF8? ⟨(firstLine session.input).toArray⟩ = none) :
    session.readLine =
      (.invalid, { session with input := afterLine session.input }) := by
  unfold readLine
  split
  · contradiction
  · rw [invalid]

theorem readLine_of_text {session : PromptSession}
    (inside : session.input ≠ []) {text : String}
    (valid : String.fromUTF8? ⟨(firstLine session.input).toArray⟩ = some text) :
    session.readLine =
      (.text, { session with
        input := afterLine session.input
        buffer := session.buffer ++ text }) := by
  unfold readLine
  split
  · contradiction
  · rw [valid]

variable (options : Options) (stage : Stage)

/-- At the end of its input a session says farewell. -/
theorem respond_of_input_nil {session : PromptSession}
    (atEnd : session.input = []) :
    session.respond options stage = .ends (session.written ++ farewell) := by
  rw [respond, readLine_of_input_nil atEnd]
  rfl

/-- Everywhere else it answers the next line.  If its buffer has been emptied,
the line is all that comes into the answer. -/
theorem respond_of_input_ne_nil {session : PromptSession}
    (inside : session.input ≠ []) (emptied : session.buffer = "") :
    session.respond options stage =
      .goesOn ⟨afterLine session.input,
        (String.fromUTF8? ⟨(firstLine session.input).toArray⟩).getD "",
        session.written ++
          answer options stage (firstLine session.input)⟩ := by
  cases decoded : String.fromUTF8? ⟨(firstLine session.input).toArray⟩ with
  | none =>
      rw [respond, readLine_of_invalid inside decoded, answer, decoded]
      simp [write, emptied]
  | some text =>
      rw [respond, readLine_of_text inside decoded, answer, decoded]
      simp [write, emptied]

theorem round_of_input_nil {session : PromptSession}
    (atEnd : session.input = []) :
    session.round options stage =
      .ends (session.written ++ prompt ++ farewell) :=
  respond_of_input_nil options stage atEnd

theorem round_of_input_ne_nil {session : PromptSession}
    (inside : session.input ≠ []) :
    session.round options stage =
      .goesOn ⟨afterLine session.input,
        (String.fromUTF8? ⟨(firstLine session.input).toArray⟩).getD "",
        session.written ++ prompt ++
          answer options stage (firstLine session.input)⟩ :=
  respond_of_input_ne_nil options stage inside rfl

/-- A round looks at nothing but the first line.  A session can be given this
line alone, once its prompt has been shown, and the rest of its input when the
line has been answered. -/
theorem round_eq_respond_receive (session : PromptSession) :
    session.round options stage =
      match (session.ask.receive (firstLine session.input)).respond
        options stage with
      | .ends written => .ends (session.ask.written ++ written)
      | .goesOn next =>
          .goesOn ⟨afterLine session.input, next.buffer,
            session.ask.written ++ next.written⟩ := by
  by_cases atEnd : session.input = []
  · have nothing : firstLine session.input = [] := by rw [atEnd]; rfl
    rw [round_of_input_nil options stage atEnd,
      respond_of_input_nil options stage nothing]
    rfl
  · have something : firstLine session.input ≠ [] := firstLine_ne_nil atEnd
    rw [round_of_input_ne_nil options stage atEnd,
      respond_of_input_ne_nil options stage something rfl]
    simp only [receive, line_firstLine, Transcript.empty_append]
    rfl

theorem rounds_of_ends {options : Options} {stage : Stage}
    {session : PromptSession} {written : Transcript}
    (ends : session.round options stage = .ends written) :
    session.rounds options stage = written := by
  rw [rounds]
  split <;> simp_all

theorem rounds_of_goesOn {options : Options} {stage : Stage}
    {session next : PromptSession}
    (goesOn : session.round options stage = .goesOn next) :
    session.rounds options stage = next.rounds options stage := by
  rw [rounds]
  split <;> simp_all

/-- What a session has written stays, and what it goes on to write depends on
nothing but the input that is left. -/
theorem exists_rounds_eq (input : List UInt8) :
    ∃ more, ∀ session : PromptSession, session.input = input →
      session.rounds options stage = session.written ++ more := by
  induction lengthEq : input.length using Nat.strong_induction_on
    generalizing input with
  | _ length induction =>
      by_cases atEnd : input = []
      · refine ⟨prompt ++ farewell, ?_⟩
        rintro session rfl
        rw [rounds_of_ends (round_of_input_nil options stage atEnd),
          Transcript.append_assoc]
      · obtain ⟨byte, bytes, inputEq⟩ := List.exists_cons_of_ne_nil atEnd
        have shorter : (afterLine input).length < length := by
          rw [← lengthEq, inputEq]
          exact length_afterLine_lt byte bytes
        obtain ⟨more, goesOn⟩ := induction _ shorter (afterLine input) rfl
        refine ⟨prompt ++ answer options stage (firstLine input) ++ more, ?_⟩
        rintro session rfl
        rw [rounds_of_goesOn (round_of_input_ne_nil options stage atEnd),
          goesOn _ rfl]
        simp only [Transcript.append_assoc]

theorem rounds_eq (session : PromptSession) :
    session.rounds options stage =
      session.written ++ run options stage session.input := by
  obtain ⟨more, writes⟩ := exists_rounds_eq options stage session.input
  have runs : run options stage session.input = more := by
    rw [run, writes (start session.input) rfl]
    exact Transcript.empty_append more
  rw [writes session rfl, runs]

theorem run_nil : run options stage [] = prompt ++ farewell := by
  have ends : (start []).round options stage =
      .ends ((start []).written ++ prompt ++ farewell) :=
    round_of_input_nil options stage rfl
  rw [run, rounds_of_ends ends, Transcript.append_assoc]
  exact Transcript.empty_append _

/-- A session answers its first line and then goes on as a session on the rest
of the input. -/
theorem run_of_ne_nil {input : List UInt8} (inside : input ≠ []) :
    run options stage input =
      prompt ++ answer options stage (firstLine input) ++
        run options stage (afterLine input) := by
  have begins : (start input).input ≠ [] := inside
  have nothing : (start input).written ++ prompt = prompt :=
    Transcript.empty_append prompt
  rw [run, rounds_of_goesOn (round_of_input_ne_nil options stage begins),
    rounds_eq, nothing]
  rfl

/-- A session on whole lines can be followed by any other: its answers come
first, and in the place of its end stands the other session. -/
theorem exists_run_append {first : List UInt8}
    (whole : first = [] ∨ first.getLast? = some lineFeed) :
    ∃ answers : Transcript,
      run options stage first = answers ++ (prompt ++ farewell) ∧
        ∀ second, run options stage (first ++ second) =
          answers ++ run options stage second := by
  induction lengthEq : first.length using Nat.strong_induction_on
    generalizing first with
  | _ length induction =>
      rcases exists_line_of_whole whole with
        rfl | ⟨line, rest, single, rfl, wholeRest⟩
      · refine ⟨{}, ?_, ?_⟩
        · rw [run_nil options stage, Transcript.empty_append]
        · intro second
          rw [List.nil_append, Transcript.empty_append]
      · have shorter : rest.length < length := by
          rw [← lengthEq]
          simp
          omega
        obtain ⟨answers, ends, goesOn⟩ := induction _ shorter wholeRest rfl
        refine ⟨prompt ++ answer options stage (line ++ [lineFeed]) ++ answers,
          ?_, ?_⟩
        · obtain ⟨firstEq, afterEq⟩ := line_append_lineFeed single rest
          rw [run_of_ne_nil options stage (by simp), firstEq, afterEq, ends,
            Transcript.append_assoc _ answers]
        · intro second
          obtain ⟨firstEq, afterEq⟩ :=
            line_append_lineFeed single (rest ++ second)
          rw [List.append_assoc, List.cons_append,
            run_of_ne_nil options stage (by simp), firstEq, afterEq, goesOn,
            Transcript.append_assoc _ answers]

/-- A session on one line asks for it, answers it, and asks again in vain. -/
theorem run_of_line {line : List UInt8} (nonempty : line ≠ [])
    (single : lineFeed ∉ line.dropLast) :
    run options stage line =
      prompt ++ answer options stage line ++ (prompt ++ farewell) := by
  have cut : firstLine line = line ∧ afterLine line = [] := by
    by_cases feeds : line.getLast nonempty = lineFeed
    · have lineEq := List.dropLast_concat_getLast nonempty
      rw [feeds] at lineEq
      rw [← lineEq]
      exact line_append_lineFeed single []
    · apply line_of_notMem
      intro member
      rw [← List.dropLast_concat_getLast nonempty, List.mem_append,
        List.mem_singleton] at member
      exact member.elim single fun same => feeds same.symm
  rw [run_of_ne_nil options stage nonempty, cut.1, cut.2, run_nil]

/-- A session is made of independent lines.  On whole lines and more input after
them it writes what it writes on the lines, without the end, and then what it
writes on the rest.  On a single line it writes a prompt, and then one message
if the line is no text.  If it is one, the session writes the result of
compiling what stands in front of the carriage returns and line feeds at the end
of the text, or else one message. -/
theorem run_eq_independent_lines (options : Options) (stage : Stage) :
    (∀ first second : List UInt8,
      first = [] ∨ first.getLast? = some lineFeed →
        ∃ answers : String,
          (run options stage first).output =
              answers ++ "> \nExited lispc repl\n" ∧
            (run options stage (first ++ second)).output =
              answers ++ (run options stage second).output ∧
            (run options stage (first ++ second)).errors =
              (run options stage first).errors ++
                (run options stage second).errors) ∧
      ∀ line : List UInt8, line ≠ [] → lineFeed ∉ line.dropLast →
        (String.fromUTF8? ⟨line.toArray⟩ = none →
          run options stage line =
            { output := "> " ++ "> \nExited lispc repl\n"
              errors :=
                "Failed read line: stream did not contain valid UTF-8\n" }) ∧
          ∀ text, String.fromUTF8? ⟨line.toArray⟩ = some text →
            ∃ trimmed ending : String, text = trimmed ++ ending ∧
              (∀ character ∈ ending.toList,
                character = '\r' ∨ character = '\n') ∧
              (∀ last ∈ trimmed.toList.getLast?,
                last ≠ '\r' ∧ last ≠ '\n') ∧
              run options stage line =
                match render options stage trimmed with
                | .ok result =>
                    { output :=
                        "> " ++ (result ++ "\n") ++ "> \nExited lispc repl\n" }
                | .error error =>
                    { output := "> " ++ "> \nExited lispc repl\n"
                      errors :=
                        "Failed compile: " ++ error.message ++ "\n" } := by
  refine ⟨?_, ?_⟩
  · intro first second whole
    obtain ⟨answers, ends, goesOn⟩ := exists_run_append options stage whole
    refine ⟨answers.output, ?_, ?_, ?_⟩
    · rw [ends]
      rfl
    · rw [goesOn]
      rfl
    · rw [goesOn, ends]
      simp [prompt, farewell]
  · intro line nonempty single
    rw [run_of_line options stage nonempty single, answer]
    refine ⟨?_, ?_⟩
    · intro invalid
      rw [invalid]
      ext1 <;> simp [prompt, farewell, unreadable]
    · intro text valid
      obtain ⟨ending, textEq, endsAll, endsNot⟩ :=
        (trimLineEnd_eq_iff text _).mp rfl
      refine ⟨trimLineEnd text, ending, textEq, endsAll, endsNot, ?_⟩
      simp only [valid, reply]
      cases render options stage (trimLineEnd text) with
      | ok result => ext1 <;> simp [prompt, farewell, String.append_assoc]
      | error error => ext1 <;> simp [prompt, farewell]

/-- One invalid line, one that ends with a line feed and one that ends with a
carriage return and a line feed. -/
theorem run_eq_independent_lines_after_invalid_line :
    ([0xff, 0x0a].getLast? = some lineFeed ∧
      ∃ answers : String,
        (run ⟨false⟩ .output [0xff, 0x0a]).output =
            answers ++ "> \nExited lispc repl\n" ∧
          (run ⟨false⟩ .output ([0xff, 0x0a] ++ [0x31, 0x0a])).output =
            answers ++ (run ⟨false⟩ .output [0x31, 0x0a]).output ∧
          (run ⟨false⟩ .output ([0xff, 0x0a] ++ [0x31, 0x0a])).errors =
            (run ⟨false⟩ .output [0xff, 0x0a]).errors ++
              (run ⟨false⟩ .output [0x31, 0x0a]).errors) ∧
      (lineFeed ∉ [0xff, 0x0a].dropLast ∧
        run ⟨false⟩ .output [0xff, 0x0a] =
          { output := "> > \nExited lispc repl\n"
            errors :=
              "Failed read line: stream did not contain valid UTF-8\n" }) ∧
      (lineFeed ∉ [0x31, 0x0a].dropLast ∧
        run ⟨false⟩ .output [0x31, 0x0a] =
          { output := "> 1\n> \nExited lispc repl\n" }) ∧
      lineFeed ∉ [0x31, 0x0d, 0x0a].dropLast ∧
        run ⟨false⟩ .output [0x31, 0x0d, 0x0a] =
          { output := "> 1\n> \nExited lispc repl\n" } := by
  have whole : [0xff, 0x0a].getLast? = some lineFeed := rfl
  have invalid : lineFeed ∉ [0xff, 0x0a].dropLast := by decide
  have feeds : lineFeed ∉ [0x31, 0x0a].dropLast := by decide
  have returns : lineFeed ∉ [0x31, 0x0d, 0x0a].dropLast := by decide
  obtain ⟨apart, single⟩ := run_eq_independent_lines ⟨false⟩ .output
  refine ⟨⟨whole, apart [0xff, 0x0a] [0x31, 0x0a] (Or.inr whole)⟩,
    ⟨invalid, ?_⟩, ⟨feeds, ?_⟩, returns, ?_⟩
  · exact (single [0xff, 0x0a] (by decide) invalid).1 (by cbv)
  · obtain ⟨trimmed, ending, textEq, endsAll, endsNot, writes⟩ :=
      (single [0x31, 0x0a] (by decide) feeds).2 "1\n" (by cbv)
    obtain rfl : trimLineEnd "1\n" = trimmed :=
      (trimLineEnd_eq_iff _ _).mpr ⟨ending, textEq, endsAll, endsNot⟩
    rw [writes]
    cbv
  · obtain ⟨trimmed, ending, textEq, endsAll, endsNot, writes⟩ :=
      (single [0x31, 0x0d, 0x0a] (by decide) returns).2 "1\r\n" (by cbv)
    obtain rfl : trimLineEnd "1\r\n" = trimmed :=
      (trimLineEnd_eq_iff _ _).mpr ⟨ending, textEq, endsAll, endsNot⟩
    rw [writes]
    cbv

end PromptSession

end ParenCall

import ReversePolish.Proofs.Call
import ReversePolish.Proofs.Delivered
import ReversePolish.Proofs.TrimmedReading

set_option autoImplicit false

/-! # Text from standard input

A run that finds no text among its arguments reads one from standard input and trims it of spaces.
It leaves the same on its channels and ends in the same way as the run on the text itself, exactly
where the text is trimmed without consequence. Elsewhere the run on the text reports the token with
the space, and what the other run comes to tells of another token or of none. -/

namespace ReversePolish

namespace CommandLine

variable {set : Charset} {level : LogLevel} {d : Domain} {c : Command} {text : String}

/-! ## Reports -/

theorem reportText_of_trimmedAlike (h : TrimmedAlike d text) :
    reportText level set c d (trimText isSpace text) = reportText level set c d text := by
  have hread := read_of_trimmedAlike h
  cases he : Expression.read d text with
  | error f =>
    rw [reportText, reportText, hread, he]
  | ok e =>
    obtain ⟨r, hr, -⟩ := read_eq_ok_iff.1 he
    have hsame := trimText_isSpace_eq (exists_readTree_eq_ok_iff.1 ⟨r, hr⟩).1
    rw [reportText_of_ok he, reportText_of_ok (hread.trans he), readingRemark, readingRemark, hsame,
      tokenize_trimText_isBlank]

theorem deliver_reportText_eq_iff :
    (reportText level set c d (trimText isSpace text)).deliver set =
        (reportText level set c d text).deliver set ↔ TrimmedAlike d text := by
  refine ⟨fun h => ?_, fun h => by rw [reportText_of_trimmedAlike h]⟩
  by_contra hnot
  obtain ⟨cause, token, p, hread, -, hplace⟩ := badLiteral_of_not_trimmedAlike hnot
  rw [deliver_reportText_of_syntaxError hread] at h
  exact hplace (token_of_badLiteral (read_of_deliver_reportText h))

/-! ## Runs -/

/-- A run that reads a text from standard input comes to the same as the run on that text, exactly
    where the text is trimmed of its spaces without consequence or the settings already fail.
    Elsewhere the text is refused at a token with a space in it. -/
theorem run_on_input_eq_iff (environment : List (String × String)) (file : Option String)
    (set : Charset) (c : Command) (d : Domain) {text : String} (h : text ≠ Argument.markerText)
    (input : String) :
    (run ⟨environment, file, callOnInput c d, text, set⟩ =
        run ⟨environment, file, callOn c d text, input, set⟩ ↔
      ∀ settings level, Settings.read environment file = .ok settings →
        LogLevel.ofName? settings.logLevel = some level → TrimmedAlike d text) ∧
      (¬ TrimmedAlike d text →
        ∃ cause token p,
          Expression.read d text = .error (.syntaxError (.badLiteral cause token p)) ∧
            ∃ a ∈ token.toList, isSpace a = true) := by
  constructor
  · cases hsettings : Settings.read environment file with
    | error faults => simp [run, invoke, hsettings]
    | ok settings =>
      rw [run_of_settings hsettings, run_of_settings hsettings]
      dsimp only
      cases hlevel : LogLevel.ofName? settings.logLevel with
      | none =>
        refine iff_of_true (by simp only [reportUnder, hlevel]) ?_
        rintro _ level ⟨rfl⟩ hname
        rw [hlevel] at hname
        cases hname
      | some level =>
        rw [reportUnder_callOnInput hlevel, reportUnder_callOn hlevel h,
          deliver_reportText_eq_iff]
        constructor
        · intro halike _ _ _ _
          exact halike
        · intro hall
          exact hall settings level rfl hlevel
  · intro hnot
    obtain ⟨cause, token, p, hread, hspace, -⟩ := badLiteral_of_not_trimmedAlike hnot
    exact ⟨cause, token, p, hread, hspace⟩

/-- Blanks around a text make no difference. -/
theorem run_on_input_eq_blanks :
    " 1 2 +\n" ≠ Argument.markerText ∧
      run ⟨[], none, callOnInput .evaluate .arithmetic, " 1 2 +\n", .utf8⟩ =
        run ⟨[], none, callOn .evaluate .arithmetic " 1 2 +\n", "", .utf8⟩ := by
  have hmarker : " 1 2 +\n" ≠ Argument.markerText := by decide
  have halike : TrimmedAlike .arithmetic " 1 2 +\n" := .inl (by decide +kernel)
  exact ⟨hmarker, (run_on_input_eq_iff [] none .utf8 .evaluate .arithmetic hmarker "").1.2
    fun _ _ _ _ => halike⟩

/-- A no-break space in front makes a difference. -/
theorem run_on_input_ne_noBreakSpace :
    run ⟨[], none, callOnInput .evaluate .arithmetic, "\u00a01 2 +", .utf8⟩ =
        ⟨"3.0\n", "", .exit 0⟩ ∧
      run ⟨[], none, callOn .evaluate .arithmetic "\u00a01 2 +", "", .utf8⟩ =
        ⟨"",
          "Błąd parsowania [invalid_token]: Invalid token at position 0: '\\xa01'\n",
          .exit 1⟩ := by
  decide +kernel

end CommandLine

end ReversePolish

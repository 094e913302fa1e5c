import Pfm.CliBounds

/-!
# What a command means

A command is a list of words, whatever blanks and tabs are between them and in whatever
case they are written.  The first one is the beginning of the name of an object, the second
one that of an action.  `pfm_cli_exec` finds them one by one in the array of the line, where
`strtok` writes.

* `cliMeans` : what a list of words means;
* `pfmCliExec_means` : what `pfm_cli_exec` returns is what the words of the line mean;
* `pfmCliExec_ends_iff` : the lines that end the session.
-/

namespace Pfm

open BoundedLoop CString

/-! ### The meaning of words -/

/-- The words behind those of the object and the action. -/
def CliActionCallback.means (args : List (List UInt8)) : CliActionCallback → PfmCliRetval
  | .linkList | .ipv4List | .arpList | .routeList => .cliContinue
  | .linkShow =>
      match args with
      | [] => .cliError
      | linkId :: _ => if linkId.all isDigit then .cliContinue else .cliError
  | .ipv4Show => if args = [] then .cliError else .cliContinue

/-- `help` with the names that follow it. -/
def helpMeans (oname action : Option (List UInt8)) : PfmCliRetval :=
  match oname with
  | none => .cliContinue
  | some oname =>
      match cliGetObject oname, action with
      | none, _ => .cliError
      | some _, none => .cliError
      | some object, some action =>
          if (cliGetAction action object).isSome then .cliContinue else .cliError

/-- An object without an action. -/
def CliObjectCallback.means (console : Bool) : CliObjectCallback → PfmCliRetval
  | .help => .cliContinue
  | .disconnect => if console then .cliContinue else .cliExit
  | .shutdown => .cliShutdown
  | .link | .ipv4 | .arp | .route => .cliError

def cliMeans (console : Bool) : List (List UInt8) → PfmCliRetval
  | [] => .cliContinue
  | oname :: rest =>
      match cliGetObject oname with
      | none => .cliError
      | some object =>
          match rest with
          | [] => object.objectCallback.means console
          | action :: args =>
              if oname <+: ascii ['h', 'e', 'l', 'p'] then helpMeans (some action) args.head?
              else
                match cliGetAction action object with
                | none => .cliError
                | some act => act.actionCallback.means args

/-! ### Names -/

theorem sameStart_iff {a b : List UInt8} : sameStart a b a.length = true ↔ a <+: b := by
  rw [sameStart, decide_eq_true_iff, List.take_length, List.prefix_iff_eq_take]

/-- At most one element is found where the predicate holds of one at most. -/
theorem find?_eq_some_of_pairwise {α : Type} {p : α → Bool} {l : List α} {a : α}
    (h : l.Pairwise fun a b => ¬(p a = true ∧ p b = true)) :
    l.find? p = some a ↔ a ∈ l ∧ p a = true := by
  refine ⟨fun hfind => ⟨List.mem_of_find?_eq_some hfind, List.find?_some hfind⟩, ?_⟩
  rintro ⟨hmem, ha⟩
  induction l with
  | nil => cases hmem
  | cons b l ih =>
      obtain ⟨hb, hl⟩ := List.pairwise_cons.mp h
      rcases List.mem_cons.mp hmem with rfl | hmem
      · exact List.find?_cons_of_pos ha
      · have hneg : ¬p b = true := fun hpb => hb a hmem ⟨hpb, ha⟩
        rw [List.find?_cons_of_neg hneg]
        exact ih hl hmem

/-- No two objects begin with the same letter. -/
theorem cliObjectList_heads :
    cliObjectList.Pairwise fun a b => a.objectName.head? ≠ b.objectName.head? := by
  decide

/-- **No command is ambiguous.**  The object is the one whose name begins with the word. -/
theorem cliGetObject_iff {oname : List UInt8} {object : CliObject} (hne : oname ≠ []) :
    cliGetObject oname = some object ↔ object ∈ cliObjectList ∧ oname <+: object.objectName := by
  obtain ⟨c, cs, rfl⟩ := List.exists_cons_of_ne_nil hne
  have hhead {b : List UInt8} (h : (c :: cs) <+: b) : b.head? = some c := by
    obtain ⟨rest, rfl⟩ := h
    rfl
  rw [cliGetObject, find?_eq_some_of_pairwise, sameStart_iff]
  refine cliObjectList_heads.imp fun hheads hboth => hheads ?_
  rw [hhead (sameStart_iff.mp hboth.1), hhead (sameStart_iff.mp hboth.2)]

/-! ### The callbacks -/

section callbacks

variable {m : CliMem} {s : List UInt8} {args : Option Nat}

theorem actionCallback_means (callback : CliActionCallback) {args : Nat} (h : StrAt m.cli args s) :
    actionCallback callback m (some args) =
      some (callback.means (words cliTokenDelimiter s)) := by
  obtain ⟨m', hrun, htok⟩ := cliStrtok_eq (show StrAt m.cli ((some args).getD m.saved) s from h)
  rw [words_eq]
  by_cases hword : word cliTokenDelimiter s = []
  · rw [if_pos hword] at hrun
    rw [if_pos hword]
    cases callback with
    | linkShow => simp only [actionCallback, hrun, Option.bind_eq_bind, Option.bind_some]; rfl
    | ipv4Show => simp only [actionCallback, hrun, Option.bind_eq_bind, Option.bind_some]; rfl
    | linkList | ipv4List | arpList | routeList => rfl
  · rw [if_neg hword] at hrun
    rw [if_neg hword]
    have hread := read_eq (htok.word_at hword)
    have hlen := strlen_eq (htok.word_at hword)
    have hpos : (word cliTokenDelimiter s).length ≠ 0 := fun hzero =>
      hword (List.length_eq_zero_iff.mp hzero)
    rw [Option.getD_some] at hrun hread hlen
    cases callback with
    | linkShow =>
        simp only [actionCallback, hrun, Option.bind_eq_bind, Option.bind_some, hread,
          if_neg hpos]
        rfl
    | ipv4Show =>
        simp only [actionCallback, hrun, Option.bind_eq_bind, Option.bind_some, hlen,
          if_neg hpos]
        rfl
    | linkList | ipv4List | arpList | routeList => rfl

/-- The name is in the line before an index, or is one of the program. -/
def NamedBefore (m : CliMem) (bound : Nat) (chars : List UInt8) : CliName → Prop
  | .token i => StrAt m.cli i chars ∧ i + chars.length < bound
  | .literal cs => cs = chars

theorem objectCallbackHelp_means {oname : CliName} {chars : List UInt8}
    (h : StrAt m.cli (args.getD m.saved) s)
    (honame : NamedBefore m (args.getD m.saved) chars oname) :
    objectCallbackHelp m (some oname) args =
      some (helpMeans (some chars) (words cliTokenDelimiter s).head?) := by
  obtain ⟨m', hrun, htok⟩ := cliStrtok_eq h
  have hchars : oname.chars m'.cli = some chars := by
    cases oname with
    | literal cs => exact congrArg some honame
    | token i =>
        obtain ⟨hstr, hlt⟩ := honame
        refine read_eq (hstr.congr fun j _ hj => htok.frame j (Or.inl ?_))
        exact Nat.lt_of_le_of_lt hj hlt
  rw [words_eq, objectCallbackHelp, hrun, Option.bind_eq_bind, Option.bind_some]
  simp only [hchars, Option.bind_eq_bind, Option.bind_some, helpMeans]
  cases cliGetObject chars with
  | none => rfl
  | some object =>
      by_cases hword : word cliTokenDelimiter s = []
      · rw [if_pos hword, if_pos hword]
        rfl
      · rw [if_neg hword, if_neg hword]
        dsimp only
        rw [read_eq (htok.word_at hword)]
        rfl

/-- No action: nothing is left of the line. -/
theorem objectCallback_means (callback : CliObjectCallback) (console : Bool)
    (h : StrAt m.cli m.saved []) :
    objectCallback callback console m none none = some (callback.means console) := by
  have hliteral (cs : List UInt8) (hcs : helpMeans (some cs) none = .cliError) :
      objectCallbackHelp m (some (.literal cs)) none = some .cliError := by
    have hname : NamedBefore m ((none : Option Nat).getD m.saved) cs (.literal cs) := rfl
    have hhelp := objectCallbackHelp_means h hname
    exact hhelp.trans (congrArg some hcs)
  cases callback with
  | help =>
      obtain ⟨m', hrun, -⟩ :=
        cliStrtok_eq (show StrAt m.cli ((none : Option Nat).getD m.saved) [] from h)
      simp only [objectCallback, objectCallbackHelp, hrun, Option.bind_eq_bind, Option.bind_some]
      rfl
  | disconnect => rfl
  | shutdown => rfl
  | link => exact hliteral _ rfl
  | ipv4 => exact hliteral _ rfl
  | arp => exact hliteral _ rfl
  | route => exact hliteral _ rfl

end callbacks

/-! ### Every line -/

section line

variable {console : Bool} {cli : CArray cliCmdLineLen UInt8} {text input : List UInt8}

/-- The words of a line: that of the object, that of the action, and the others. -/
theorem words_text (text : List UInt8) : words cliTokenDelimiter text =
    if cliObjectToken text = [] then []
    else cliObjectToken text :: if cliActionToken text = [] then []
      else cliActionToken text :: words cliTokenDelimiter (cliRemainder text) := by
  have hrest : words cliTokenDelimiter (cliBehindObject text) = _ :=
    words_eq (cliBehindObject text)
  have hall : words cliTokenDelimiter text = _ := words_eq text
  change words cliTokenDelimiter text = if cliObjectToken text = [] then [] else
    cliObjectToken text :: words cliTokenDelimiter (cliBehindObject text) at hall
  rw [hall, hrest]
  rfl

/-- An object word that begins `help` is that of `help`. -/
theorem cliGetObject_help {oname : List UInt8} {object : CliObject}
    (hhelp : oname <+: ascii ['h', 'e', 'l', 'p']) (hfound : cliGetObject oname = some object) :
    object.objectCallback = .help := by
  have hfirst : cliGetObject oname = some ⟨ascii ['h', 'e', 'l', 'p'], .help, []⟩ :=
    List.find?_cons_of_pos (sameStart_iff.mpr hhelp)
  obtain rfl := Option.some.inj (hfound.symm.trans hfirst)
  rfl

/-- **The array against the words.** -/
theorem cliDispatch_means (console : Bool) (h : StrAt cli 0 text)
    (hok : PassesArgs text → cliBehindAction text ≠ [] ∨ cli.get? (text.length + 1) = some 0) :
    ∃ call, cliDispatch console cli =
      some (cliMeans console (words cliTokenDelimiter text), call) := by
  obtain ⟨m, hfirst, htok⟩ := firstToken h
  rw [words_text, cliDispatch, hfirst, Option.bind_eq_bind, Option.bind_some]
  by_cases hobject : cliObjectToken text = []
  · rw [if_pos hobject, if_pos hobject]
    exact ⟨none, rfl⟩
  rw [if_neg hobject, if_neg hobject]
  have honame : StrAt m.cli (lead cliTokenDelimiter text).length (cliObjectToken text) := by
    have hword := htok.word_at hobject
    rwa [Nat.zero_add] at hword
  obtain ⟨m', action, hsecond, hsaved, htokens⟩ := cliTokens htok hobject
  simp only [read_eq honame, hsecond, Option.bind_eq_bind, Option.bind_some, cliMeans]
  cases hfound : cliGetObject (cliObjectToken text) with
  | none => exact ⟨none, rfl⟩
  | some object =>
  by_cases haction : cliActionToken text = []
  · -- the object alone: `strtok` has nothing left to find
    have hnil : cliRemainder text = [] := by
      rw [cliRemainder, cliBehindAction, behind_of_word_nil haction]
      rfl
    rw [hnil] at hsaved
    simp only [if_pos haction, objectCallback_means object.objectCallback console hsaved,
      Option.bind_some]
    exact ⟨_, rfl⟩
  rw [if_neg haction, if_neg haction]
  have htokens := htokens haction
  simp only [strlen_eq htokens.action_at, read_eq htokens.oname_at, read_eq htokens.action_at,
    Option.bind_some]
  by_cases hhelp : cliObjectToken text <+: ascii ['h', 'e', 'l', 'p']
  · have hsame := sameStart_iff.mpr hhelp
    have hargs := htokens.args_at (hok ⟨haction, object, hfound, Or.inl hsame⟩)
    rw [if_neg (by rw [hsame]; nofun), if_pos hhelp, cliGetObject_help hhelp hfound]
    have hname : NamedBefore m' (action + (cliActionToken text).length + 1)
        (cliActionToken text) (.token action) :=
      ⟨htokens.action_at, Nat.lt_succ_self _⟩
    have hmeans : objectCallbackHelp m' (some (.token action))
        (some (action + (cliActionToken text).length + 1)) = _ :=
      objectCallbackHelp_means hargs hname
    simp only [objectCallback, Option.map_some, hmeans, Option.bind_some]
    exact ⟨_, rfl⟩
  · have hother : sameStart (cliObjectToken text) (ascii ['h', 'e', 'l', 'p'])
        (cliObjectToken text).length = false :=
      Bool.eq_false_of_not_eq_true fun hsame => hhelp (sameStart_iff.mp hsame)
    rw [if_pos hother, if_neg hhelp]
    cases hact : cliGetAction (cliActionToken text) object with
    | none => exact ⟨none, rfl⟩
    | some act =>
        have hargs := htokens.args_at (hok ⟨haction, object, hfound, Or.inr (by rw [hact]; rfl)⟩)
        simp only [actionCallback_means act.actionCallback hargs, Option.bind_some]
        exact ⟨_, rfl⟩

/-- The line as `cliDispatch` gets it, with the byte behind its NUL. -/
theorem pfmCliExec_line {line : List UInt8} (hline : fgetsLine (cliCmdLineLen - 1) input = line)
    (hne : line ≠ []) (hnul : line.head? ≠ some 0) (cli₀ : CArray cliCmdLineLen UInt8) :
    ∃ cli, (∀ console, pfmCliExec console cli₀ input = cliDispatch console cli) ∧
      StrAt cli 0 (cliText line) ∧
      ((line ++ [0])[(cliText line).length + 1]? = some 0 →
        cli.get? ((cliText line).length + 1) = some 0) := by
  obtain ⟨cli₁, hread, hstr, hstored⟩ := fgets_read cli₀ hline hne
  obtain ⟨cli, hprepare, hstr', hframe⟩ :=
    cliPrepare_eq hstr ((chars_eq_nil_iff hne).not.mpr hnul)
  refine ⟨cli, fun console => ?_, hstr', fun hzero => ?_⟩
  · rw [pfmCliExec, hread]
    dsimp only
    rw [hprepare, Option.bind_some]
  · have hlen := (List.getElem?_eq_some_iff.mp hzero).1
    have hle : line.length ≤ cliCmdLineLen - 1 := hline ▸ length_fgetsLine_le _ input
    have hroom : cliCmdLineLen - 1 + 1 = cliCmdLineLen := rfl
    rw [List.length_append, List.length_singleton] at hlen
    rw [hframe _ (by rw [length_cliText]; exact Nat.lt_succ_self _), hstored _ (by omega), hzero]
    rfl

/-- **The words of the line.**  Whatever the array holds before, a line that is handled in
bounds has the result that its words mean, in lower case. -/
theorem pfmCliExec_means (hok : CliLineOk input) (console : Bool)
    (cli : CArray cliCmdLineLen UInt8) :
    ∃ call, pfmCliExec console cli input =
      some (cliMeans console (words cliTokenDelimiter
        (cliText (fgetsLine (cliCmdLineLen - 1) input))), call) := by
  rw [CliLineOk] at hok
  generalize hline : fgetsLine (cliCmdLineLen - 1) input = line at hok
  by_cases hempty : line = []
  · subst hempty
    rw [pfmCliExec, fgets_eq_none hline]
    exact ⟨none, rfl⟩
  obtain ⟨hnul, hpasses⟩ := hok.resolve_left hempty
  obtain ⟨cli', hexec, hstr, hbyte⟩ := pfmCliExec_line hline hempty hnul cli
  rw [hexec]
  exact cliDispatch_means console hstr fun hargs => (hpasses hargs).imp_right hbyte

/-- `Link  SHOW 1`, with a newline. -/
def linkShowLine : List UInt8 :=
  ascii ['L', 'i', 'n', 'k', ' ', ' ', 'S', 'H', 'O', 'W', ' ', '1'] ++ [newline]

theorem pfmCliExec_means_linkShow : CliLineOk linkShowLine ∧
    ∃ call, pfmCliExec true fullOfX linkShowLine = some (cliMeans true
      (words cliTokenDelimiter (cliText (fgetsLine (cliCmdLineLen - 1) linkShowLine))), call) := by
  have hok : CliLineOk linkShowLine := by
    refine Or.inr ⟨by decide, fun _ => Or.inl (by decide)⟩
  exact ⟨hok, pfmCliExec_means hok true fullOfX⟩

/-! ### The end of the session -/

theorem words_ne_nil {w : List UInt8} (h : w ∈ words cliTokenDelimiter text) : w ≠ [] :=
  of_decide_eq_true (List.mem_filter.mp h).2

/-- No command with an action ends the session. -/
theorem CliActionCallback.means_goesOn (callback : CliActionCallback) (args : List (List UInt8)) :
    callback.means args = .cliContinue ∨ callback.means args = .cliError := by
  cases callback with
  | linkShow =>
      cases args with
      | nil => exact Or.inr rfl
      | cons linkId args =>
          rw [CliActionCallback.means]
          split
          · exact Or.inl rfl
          · exact Or.inr rfl
  | ipv4Show =>
      rw [CliActionCallback.means]
      split
      · exact Or.inr rfl
      · exact Or.inl rfl
  | linkList | ipv4List | arpList | routeList => exact Or.inl rfl

theorem helpMeans_goesOn (oname action : Option (List UInt8)) :
    helpMeans oname action = .cliContinue ∨ helpMeans oname action = .cliError := by
  unfold helpMeans
  split
  · exact Or.inl rfl
  split
  · exact Or.inr rfl
  · exact Or.inr rfl
  split
  · exact Or.inl rfl
  · exact Or.inr rfl

/-- The session of `fpout` ends. -/
def PfmCliRetval.Ends (ret : PfmCliRetval) : Prop := ret = .cliExit ∨ ret = .cliShutdown

theorem PfmCliRetval.not_ends {ret : PfmCliRetval} (h : ret = .cliContinue ∨ ret = .cliError) :
    ¬ret.Ends := by
  rcases h with rfl | rfl
  · exact fun hends => hends.elim nofun nofun
  · exact fun hends => hends.elim nofun nofun

/-- A word that begins `shutdown`, or `disconnect` away from the console. -/
def EndsSession (console : Bool) (oname : List UInt8) : Prop :=
  oname <+: ascii ['s', 'h', 'u', 't', 'd', 'o', 'w', 'n'] ∨
    console = false ∧ oname <+: ascii ['d', 'i', 's', 'c', 'o', 'n', 'n', 'e', 'c', 't']

theorem cliMeans_alone_iff {oname : List UInt8} (hne : oname ≠ []) :
    (cliMeans console [oname]).Ends ↔ EndsSession console oname := by
  constructor
  · intro hends
    simp only [cliMeans] at hends
    cases hfound : cliGetObject oname with
    | none =>
        rw [hfound] at hends
        exact absurd hends (PfmCliRetval.not_ends (Or.inr rfl))
    | some object =>
        rw [hfound] at hends
        obtain ⟨hmem, hbegins⟩ := (cliGetObject_iff hne).mp hfound
        simp only [cliObjectList, List.mem_cons, List.not_mem_nil, or_false] at hmem
        rcases hmem with rfl | rfl | rfl | rfl | rfl | rfl | rfl
        · exact absurd hends (PfmCliRetval.not_ends (Or.inl rfl))
        · cases console with
          | false => exact Or.inr ⟨rfl, hbegins⟩
          | true => exact absurd hends (PfmCliRetval.not_ends (Or.inl rfl))
        · exact Or.inl hbegins
        all_goals exact absurd hends (PfmCliRetval.not_ends (Or.inr rfl))
  · rintro (hbegins | ⟨rfl, hbegins⟩)
    · have hfound : cliGetObject oname =
          some ⟨ascii ['s', 'h', 'u', 't', 'd', 'o', 'w', 'n'], .shutdown, []⟩ :=
        (cliGetObject_iff hne).mpr ⟨by simp [cliObjectList], hbegins⟩
      rw [cliMeans, hfound]
      exact Or.inr rfl
    · have hfound : cliGetObject oname =
          some ⟨ascii ['d', 'i', 's', 'c', 'o', 'n', 'n', 'e', 'c', 't'], .disconnect, []⟩ :=
        (cliGetObject_iff hne).mpr ⟨by simp [cliObjectList], hbegins⟩
      rw [cliMeans, hfound]
      exact Or.inl rfl

theorem cliMeans_ends_iff {ws : List (List UInt8)} (hne : ∀ w ∈ ws, w ≠ []) :
    (cliMeans console ws).Ends ↔ ∃ oname, ws = [oname] ∧ EndsSession console oname := by
  match ws with
  | [] => exact iff_of_false (PfmCliRetval.not_ends (Or.inl rfl)) fun ⟨_, heq, _⟩ => by cases heq
  | [oname] =>
      rw [cliMeans_alone_iff (hne oname List.mem_cons_self)]
      constructor
      · exact fun hends => ⟨oname, rfl, hends⟩
      · rintro ⟨_, heq, hends⟩
        obtain rfl := (List.cons.inj heq).1
        exact hends
  | oname :: action :: args =>
      refine iff_of_false (PfmCliRetval.not_ends ?_) fun ⟨_, heq, _⟩ => by cases heq
      simp only [cliMeans]
      split
      · exact Or.inr rfl
      split
      · exact helpMeans_goesOn _ _
      split
      · exact Or.inr rfl
      · exact CliActionCallback.means_goesOn _ _

end line

/-! ### The callbacks again -/

section goesOn

variable {m : CliMem} {action args : Option Nat} {ret : PfmCliRetval}

/-- `help` does not end the session, whatever it reads. -/
theorem objectCallbackHelp_goesOn {oname : Option CliName}
    (h : objectCallbackHelp m oname args = some ret) : ¬ret.Ends := by
  unfold objectCallbackHelp at h
  obtain ⟨⟨token, m'⟩, -, h⟩ := Option.bind_eq_some_iff.mp h
  apply PfmCliRetval.not_ends
  cases oname with
  | none =>
      obtain rfl := Option.some.inj h
      exact Or.inl rfl
  | some oname =>
      obtain ⟨chars, -, h⟩ := Option.bind_eq_some_iff.mp h
      split at h
      · obtain rfl := Option.some.inj h
        exact Or.inr rfl
      · obtain rfl := Option.some.inj h
        exact Or.inr rfl
      · obtain ⟨chars', -, h⟩ := Option.bind_eq_some_iff.mp h
        obtain rfl := Option.some.inj h
        split
        · exact Or.inl rfl
        · exact Or.inr rfl

theorem actionCallback_goesOn {callback : CliActionCallback}
    (h : actionCallback callback m args = some ret) : ¬ret.Ends := by
  apply PfmCliRetval.not_ends
  cases callback with
  | linkList | ipv4List | arpList | routeList =>
      obtain rfl := Option.some.inj h
      exact Or.inl rfl
  | linkShow =>
      obtain ⟨⟨token, m'⟩, -, h⟩ := Option.bind_eq_some_iff.mp h
      dsimp only at h
      split at h
      · obtain rfl := Option.some.inj h
        exact Or.inr rfl
      obtain ⟨chars, -, h⟩ := Option.bind_eq_some_iff.mp h
      split at h
      · obtain rfl := Option.some.inj h
        exact Or.inr rfl
      obtain rfl := Option.some.inj h
      split
      · exact Or.inl rfl
      · exact Or.inr rfl
  | ipv4Show =>
      obtain ⟨⟨token, m'⟩, -, h⟩ := Option.bind_eq_some_iff.mp h
      dsimp only at h
      split at h
      · obtain rfl := Option.some.inj h
        exact Or.inr rfl
      obtain ⟨len, -, h⟩ := Option.bind_eq_some_iff.mp h
      obtain rfl := Option.some.inj h
      split
      · exact Or.inr rfl
      · exact Or.inl rfl

end goesOn

/-! ### The lines that end the session -/

section ends

variable {console : Bool} {cli : CArray cliCmdLineLen UInt8} {text input : List UInt8}

/-- A line with an action does not end the session, whatever its callback reads. -/
theorem cliDispatch_goesOn {ret : PfmCliRetval} {call : Option CliCall} (h : StrAt cli 0 text)
    (hpasses : PassesArgs text) (hrun : cliDispatch console cli = some (ret, call)) :
    ¬ret.Ends := by
  obtain ⟨haction, object, hfound, -⟩ := hpasses
  have hobject : cliObjectToken text ≠ [] := by
    intro hnil
    apply haction
    rw [cliActionToken, cliBehindObject, behind_of_word_nil hnil]
    rfl
  obtain ⟨m, hfirst, htok⟩ := firstToken h
  have honame : StrAt m.cli (lead cliTokenDelimiter text).length (cliObjectToken text) := by
    have hword := htok.word_at hobject
    rwa [Nat.zero_add] at hword
  obtain ⟨m', action, hsecond, -, htokens⟩ := cliTokens htok hobject
  have htokens := htokens haction
  rw [cliDispatch, hfirst, Option.bind_eq_bind, Option.bind_some, if_neg hobject] at hrun
  simp only [read_eq honame, hsecond, hfound, if_neg haction, strlen_eq htokens.action_at,
    read_eq htokens.oname_at, read_eq htokens.action_at, Option.bind_eq_bind,
    Option.bind_some] at hrun
  split at hrun
  · split at hrun
    · obtain ⟨rfl, -⟩ := Prod.mk.inj (Option.some.inj hrun)
      exact PfmCliRetval.not_ends (Or.inr rfl)
    · obtain ⟨ret', hret, hrun⟩ := Option.bind_eq_some_iff.mp hrun
      obtain ⟨rfl, -⟩ := Prod.mk.inj (Option.some.inj hrun)
      exact actionCallback_goesOn hret
  · rename_i hhelp
    have hprefix := sameStart_iff.mp (Bool.eq_true_of_not_eq_false hhelp)
    obtain ⟨ret', hret, hrun⟩ := Option.bind_eq_some_iff.mp hrun
    obtain ⟨rfl, -⟩ := Prod.mk.inj (Option.some.inj hrun)
    rw [cliGetObject_help hprefix hfound, objectCallback] at hret
    exact objectCallbackHelp_goesOn hret

/-- A line that ends the session is handled in bounds. -/
theorem cliLineOk_of_ends {ret : PfmCliRetval} {call : Option CliCall}
    (hexec : pfmCliExec console cli input = some (ret, call)) (hends : ret.Ends) :
    CliLineOk input := by
  rw [CliLineOk]
  generalize hline : fgetsLine (cliCmdLineLen - 1) input = line
  by_cases hempty : line = []
  · exact Or.inl hempty
  by_cases hnul : line.head? = some 0
  · obtain ⟨cli₁, hread, hstr, -⟩ := fgets_read cli hline hempty
    rw [(chars_eq_nil_iff hempty).mpr hnul] at hstr
    rw [pfmCliExec, hread] at hexec
    dsimp only at hexec
    rw [cliPrepare_nil hstr] at hexec
    cases hexec
  obtain ⟨cli₁, hdispatch, hstr, -⟩ := pfmCliExec_line hline hempty hnul cli
  refine Or.inr ⟨hnul, fun hpasses => ?_⟩
  exact absurd hends (cliDispatch_goesOn hstr hpasses ((hdispatch console).symm.trans hexec))

/-- So is one of one word. -/
theorem cliLineOk_of_word {oname : List UInt8}
    (hwords : words cliTokenDelimiter (cliText (fgetsLine (cliCmdLineLen - 1) input)) = [oname]) :
    CliLineOk input := by
  rw [CliLineOk]
  revert hwords
  generalize fgetsLine (cliCmdLineLen - 1) input = line
  intro hwords
  by_cases hempty : line = []
  · exact Or.inl hempty
  refine Or.inr ⟨fun hnul => ?_, fun hpasses => ?_⟩
  · rw [cliText, (chars_eq_nil_iff hempty).mpr hnul] at hwords
    cases hwords
  · rw [words_text] at hwords
    split at hwords
    · cases hwords
    rw [if_neg hpasses.1] at hwords
    cases (List.cons.inj hwords).2

theorem ends_iff_of_ok (hok : CliLineOk input) :
    (∃ ret call, pfmCliExec console cli input = some (ret, call) ∧ ret.Ends) ↔
      ∃ oname, words cliTokenDelimiter (cliText (fgetsLine (cliCmdLineLen - 1) input)) = [oname] ∧
        EndsSession console oname := by
  obtain ⟨call, hexec⟩ := pfmCliExec_means hok console cli
  rw [← cliMeans_ends_iff fun w hw => words_ne_nil hw, hexec]
  constructor
  · rintro ⟨ret, call', heq, hends⟩
    obtain ⟨rfl, -⟩ := Prod.mk.inj (Option.some.inj heq)
    exact hends
  · exact fun hends => ⟨_, call, rfl, hends⟩

/-- **The end of the session.**  It ends with a line of one word only, which begins
`shutdown`; or `disconnect`, away from the console. -/
theorem pfmCliExec_ends_iff (console : Bool) (cli : CArray cliCmdLineLen UInt8)
    (input : List UInt8) :
    (∃ ret call, pfmCliExec console cli input = some (ret, call) ∧ ret.Ends) ↔
      ∃ oname, words cliTokenDelimiter (cliText (fgetsLine (cliCmdLineLen - 1) input)) = [oname] ∧
        EndsSession console oname := by
  constructor
  · intro h
    obtain ⟨ret, call, hexec, hends⟩ := h
    exact (ends_iff_of_ok (cliLineOk_of_ends hexec hends)).mp ⟨ret, call, hexec, hends⟩
  · intro h
    obtain ⟨oname, hwords, hends⟩ := h
    exact (ends_iff_of_ok (cliLineOk_of_word hwords)).mpr ⟨oname, hwords, hends⟩

end ends

/-! ### The console -/

section console

variable {m : CliMem} {action args : Option Nat} {ret : PfmCliRetval}

theorem objectCallback_console {callback : CliObjectCallback}
    (h : objectCallback callback true m action args = some ret) : ret ≠ .cliExit := by
  unfold objectCallback at h
  cases callback with
  | help | link | ipv4 | arp | route =>
      exact fun hexit => objectCallbackHelp_goesOn h (Or.inl hexit)
  | disconnect | shutdown =>
      obtain rfl := Option.some.inj h
      nofun

theorem cliDispatch_console {cli : CArray cliCmdLineLen UInt8}
    {out : PfmCliRetval × Option CliCall} (h : cliDispatch true cli = some out) :
    out.1 ≠ .cliExit := by
  unfold cliDispatch at h
  obtain ⟨⟨oname, m⟩, -, h⟩ := Option.bind_eq_some_iff.mp h
  cases oname with
  | none =>
      obtain rfl := Option.some.inj h
      nofun
  | some oname =>
  obtain ⟨name, -, h⟩ := Option.bind_eq_some_iff.mp h
  dsimp only at h
  split at h
  · obtain rfl := Option.some.inj h
    nofun
  obtain ⟨⟨action, m'⟩, -, h⟩ := Option.bind_eq_some_iff.mp h
  cases action with
  | none =>
      obtain ⟨ret, hret, h⟩ := Option.bind_eq_some_iff.mp h
      obtain rfl := Option.some.inj h
      exact objectCallback_console hret
  | some action =>
  obtain ⟨len, -, h⟩ := Option.bind_eq_some_iff.mp h
  obtain ⟨name', -, h⟩ := Option.bind_eq_some_iff.mp h
  split at h
  · obtain ⟨actionName, -, h⟩ := Option.bind_eq_some_iff.mp h
    split at h
    · obtain rfl := Option.some.inj h
      nofun
    obtain ⟨ret, hret, h⟩ := Option.bind_eq_some_iff.mp h
    obtain rfl := Option.some.inj h
    exact fun hexit => actionCallback_goesOn hret (Or.inl hexit)
  · obtain ⟨ret, hret, h⟩ := Option.bind_eq_some_iff.mp h
    obtain rfl := Option.some.inj h
    exact objectCallback_console hret

/-- The console's session has one end: the program's. -/
theorem pfmCliExec_console {cli : CArray cliCmdLineLen UInt8} {input : List UInt8}
    {out : PfmCliRetval × Option CliCall} (h : pfmCliExec true cli input = some out) :
    out.1 ≠ .cliExit := by
  unfold pfmCliExec at h
  split at h
  · obtain rfl := Option.some.inj h
    nofun
  · obtain ⟨cli', -, h⟩ := Option.bind_eq_some_iff.mp h
    exact cliDispatch_console h

end console

end Pfm

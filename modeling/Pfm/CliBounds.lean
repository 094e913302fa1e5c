import Pfm.Cli

/-!
# The bounds of the command line

Where `pfm_cli_exec` reads and writes the array of the line, and where it points the
callbacks to.  The line ends at its first NUL.  One that has nothing before it makes
the last character one before the array; and when the action token is the end of the
line, what is one behind the token is not the rest of the line.

* `cliPrepare_eq` : the line as it is made ready;
* `cliTokens` : where the two tokens are;
* `cliSafe_iff` : the lines for which everything stays in bounds.
-/

namespace Pfm

open BoundedLoop CString

/-! ### The line -/

def blankNewline (s : List UInt8) : List UInt8 :=
  if s.getLast? = some newline then s.dropLast ++ [blank] else s

/-- The line made ready. -/
def cliText (line : List UInt8) : List UInt8 := (blankNewline (chars line)).map toLower

/-- The object token. -/
def cliObjectToken (text : List UInt8) : List UInt8 := word cliTokenDelimiter text

/-- Behind the object token and its delimiter. -/
def cliBehindObject (text : List UInt8) : List UInt8 := (behind cliTokenDelimiter text).tail

def cliActionToken (text : List UInt8) : List UInt8 :=
  word cliTokenDelimiter (cliBehindObject text)

/-- Behind the action token, its delimiter included. -/
def cliBehindAction (text : List UInt8) : List UInt8 :=
  behind cliTokenDelimiter (cliBehindObject text)

/-- The remainder of the line. -/
def cliRemainder (text : List UInt8) : List UInt8 := (cliBehindAction text).tail

/-- There is an action token, and a callback is called with it: the object is `help`,
or it has the action. -/
def PassesArgs (text : List UInt8) : Prop :=
  cliActionToken text ≠ [] ∧ ∃ object, cliGetObject (cliObjectToken text) = some object ∧
    (sameStart (cliObjectToken text) (ascii ['h', 'e', 'l', 'p']) (cliObjectToken text).length ∨
      (cliGetAction (cliActionToken text) object).isSome)

/-- The arguments for an action token are the remainder of the line. -/
def ArgsRight (text : List UInt8) (call : CliCall) : Prop :=
  ∀ action, call.action = some action →
    ∃ args, call.args = some args ∧ StrAt call.mem.cli args (cliRemainder text)

/-- Whatever the array holds before, the line is handled in bounds, and a callback gets
the remainder of the line. -/
def CliSafe (input : List UInt8) : Prop :=
  ∀ console cli, ∃ ret call, pfmCliExec console cli input = some (ret, call) ∧
    ∀ c, call = some c → ArgsRight (cliText (fgetsLine (cliCmdLineLen - 1) input)) c

/-- There is no line; or it does not begin with a NUL, and behind an action token that
a callback is called for there is a delimiter, or a NUL behind the one that ends it. -/
def CliLineOk (input : List UInt8) : Prop :=
  let line := fgetsLine (cliCmdLineLen - 1) input
  line = [] ∨
    line.head? ≠ some 0 ∧ (PassesArgs (cliText line) →
      cliBehindAction (cliText line) ≠ [] ∨
        (line ++ [0])[(cliText line).length + 1]? = some 0)

theorem length_fgetsLine_le (size : Nat) (input : List UInt8) :
    (fgetsLine size input).length ≤ size := by
  induction size generalizing input with
  | zero => exact Nat.zero_le _
  | succ size ih =>
      cases input with
      | nil => exact Nat.zero_le _
      | cons b bs =>
          rw [fgetsLine]
          split
          · exact Nat.succ_le_succ (Nat.zero_le size)
          · exact Nat.succ_le_succ (ih bs)

theorem chars_eq_nil_iff {line : List UInt8} (hne : line ≠ []) :
    chars line = [] ↔ line.head? = some 0 := by
  obtain ⟨b, bs, rfl⟩ := List.exists_cons_of_ne_nil hne
  rw [chars_cons, List.head?_cons, Option.some_inj]
  split
  · exact iff_of_true rfl ‹_›
  · exact iff_of_false (List.cons_ne_nil _ _) ‹_›

/-! ### What `fgets` stores -/

section fgets

variable {cli : CArray cliCmdLineLen UInt8} {input : List UInt8}

theorem fgets_eq_none (h : fgetsLine (cliCmdLineLen - 1) input = []) : fgets cli input = none := by
  rw [fgets, h]
  rfl

/-- A line that is read, with its NUL; behind it the array is as it was. -/
theorem fgets_read (cli₀ : CArray cliCmdLineLen UInt8) {line : List UInt8}
    (hline : fgetsLine (cliCmdLineLen - 1) input = line) (hne : line ≠ []) :
    ∃ cli, fgets cli₀ input = some cli ∧ StrAt cli 0 (chars line) ∧
      ∀ i, (hi : i < cliCmdLineLen) →
        cli.get? i = some (((line ++ [0])[i]?).getD (cli₀ ⟨i, hi⟩)) := by
  have hget (i : Nat) (hi : i < cliCmdLineLen) :
      CArray.get? (fun i : Fin cliCmdLineLen => ((line ++ [0])[i.val]?).getD (cli₀ i)) i =
        some (((line ++ [0])[i]?).getD (cli₀ ⟨i, hi⟩)) := CArray.get?_of_lt _ hi
  refine ⟨_, ?_, strAt_chars fun j x hx => ?_, hget⟩
  · rw [fgets, hline, if_neg hne]
  · have hj := (List.getElem?_eq_some_iff.mp hx).1
    have hlen : line.length ≤ 79 := hline ▸ length_fgetsLine_le _ input
    rw [List.length_append, List.length_singleton] at hj
    rw [Nat.zero_add, hget j (by show j < 80; omega), hx]
    rfl

end fgets

/-! ### The line made ready -/

section prepare

variable {cli cli' : CArray cliCmdLineLen UInt8} {s : List UInt8}

theorem toLower_eq_zero {b : UInt8} (h : toLower b = 0) : b = 0 := by
  unfold toLower at h
  split at h
  · rename_i hupper
    obtain ⟨hle, hge⟩ := hupper
    exfalso
    have hle : 65 ≤ b.toNat := hle
    have hge : b.toNat ≤ 90 := hge
    have hsum := congrArg UInt8.toNat h
    rw [UInt8.toNat_add] at hsum
    have hmod : (b.toNat + 32) % 256 = 0 := hsum
    omega
  · exact h

theorem blankNewline_concat (s : List UInt8) (c : UInt8) :
    blankNewline (s ++ [c]) = s ++ [if c = newline then blank else c] := by
  rw [blankNewline, List.getLast?_concat, List.dropLast_concat]
  by_cases hc : c = newline
  · rw [if_pos (congrArg some hc), if_pos hc]
  · rw [if_neg fun heq => hc (Option.some.inj heq), if_neg hc]

theorem length_cliText (line : List UInt8) : (cliText line).length = (chars line).length := by
  rw [cliText, List.length_map]
  rcases List.eq_nil_or_concat (chars line) with hnil | ⟨s, c, hs⟩
  · rw [hnil]
    rfl
  · rw [hs, List.concat_eq_append, blankNewline_concat, List.length_append, List.length_append]
    rfl

/-- The loop writes the bytes from the NUL down. -/
theorem cliLower_eq (cli : CArray cliCmdLineLen UInt8) {len : Nat} (hlen : len < cliCmdLineLen) :
    ∃ cli', cliLower len cli = some cli' ∧
      ∀ j, cli'.get? j = if j ≤ len then (cli.get? j).map toLower else cli.get? j := by
  have hloop : ∃ cli', cliLower len cli = some cli' ∧ ∀ j, cli'.get? j =
      if len < j + (len + 1) ∧ j ≤ len then (cli.get? j).map toLower else cli.get? j := by
    refine forRange_isSome (fun k (c : CArray cliCmdLineLen UInt8) => ∀ j, c.get? j =
      if len < j + k ∧ j ≤ len then (cli.get? j).map toLower else cli.get? j) ?_ ?_
    · intro j
      rw [if_neg (by omega)]
    · intro k c hk hinv
      have hroom : len - k < cliCmdLineLen := by omega
      have hbyte := hinv (len - k)
      rw [if_neg (by omega), CArray.get?_of_lt cli hroom] at hbyte
      have hset := CArray.set?_of_lt c hroom (toLower (cli ⟨len - k, hroom⟩))
      refine ⟨_, by rw [hbyte, Option.bind_eq_bind, Option.bind_some, hset], fun j => ?_⟩
      rw [CArray.get?_set? hset, hinv j]
      by_cases hj : j = len - k
      · subst hj
        rw [if_pos rfl, if_pos (by omega), CArray.get?_of_lt cli hroom, Option.map_some]
      · rw [if_neg hj]
        congr 1
        rw [eq_iff_iff]
        omega
  obtain ⟨cli', hrun, hinv⟩ := hloop
  refine ⟨cli', hrun, fun j => ?_⟩
  rw [hinv j]
  congr 1
  rw [eq_iff_iff]
  omega

theorem strAt_map_toLower (h : StrAt cli 0 s)
    (hlower : ∀ j, j ≤ s.length → cli'.get? j = (cli.get? j).map toLower) :
    StrAt cli' 0 (s.map toLower) where
  no_nul hmem := by
    obtain ⟨b, hb, hzero⟩ := List.mem_map.mp hmem
    exact h.no_nul (toLower_eq_zero hzero ▸ hb)
  holds j x hx := by
    have hmap : s.map toLower ++ [0] = (s ++ [0]).map toLower := by
      rw [List.map_append]
      rfl
    rw [hmap, List.getElem?_map] at hx
    obtain ⟨b, hb, rfl⟩ := Option.map_eq_some_iff.mp hx
    have hj := (List.getElem?_eq_some_iff.mp hb).1
    rw [List.length_append, List.length_singleton] at hj
    have hget := h.holds j b hb
    rw [Nat.zero_add] at hget ⊢
    rw [hlower j (by omega), hget, Option.map_some]

theorem cliPrepare_eq (h : StrAt cli 0 s) (hne : s ≠ []) :
    ∃ cli', cliPrepare cli = some cli' ∧ StrAt cli' 0 ((blankNewline s).map toLower) ∧
      ∀ j, s.length < j → cli'.get? j = cli.get? j := by
  obtain ⟨front, c, rfl⟩ : ∃ front c, s = front ++ [c] :=
    ⟨s.dropLast, s.getLast hne, (List.dropLast_append_getLast hne).symm⟩
  rw [blankNewline_concat]
  have hlt := h.lt
  rw [List.length_append, List.length_singleton, Nat.zero_add] at hlt
  have hroom : front.length < cliCmdLineLen := Nat.lt_of_succ_lt hlt
  obtain ⟨hfront, hlast⟩ := holds_append.mp (holds_append.mp h.holds).1
  have hbyte : cli ⟨front.length, hroom⟩ = c := by
    have hget := (holds_cons.mp hlast).1
    rw [Nat.zero_add, CArray.get?_of_lt cli hroom] at hget
    exact Option.some.inj hget
  -- the last character is written when it is a newline
  obtain ⟨cli₁, hcli₁, hstr, hframe⟩ : ∃ cli₁ : CArray cliCmdLineLen UInt8,
      (if cli ⟨front.length, hroom⟩ = newline then
        Function.update cli ⟨front.length, hroom⟩ blank else cli) = cli₁ ∧
      StrAt cli₁ 0 (front ++ [if c = newline then blank else c]) ∧
      ∀ j, front.length < j → cli₁.get? j = cli.get? j := by
    rw [hbyte]
    by_cases hc : c = newline
    swap
    · rw [if_neg hc, if_neg hc]
      exact ⟨cli, rfl, h, fun _ _ => rfl⟩
    rw [if_pos hc, if_pos hc]
    have hset := CArray.set?_of_lt cli hroom blank
    have hother (j : Nat) (hj : j ≠ front.length) := by
      have hget := CArray.get?_set? hset j
      rwa [if_neg hj] at hget
    refine ⟨_, rfl, ⟨?_, ?_⟩, fun j hj => hother j (Nat.ne_of_gt hj)⟩
    · intro hmem
      rcases List.mem_append.mp hmem with hmem | hmem
      · exact h.no_nul (List.mem_append_left _ hmem)
      · exact absurd (List.mem_singleton.mp hmem) (by decide)
    · refine holds_append.mpr ⟨holds_append.mpr ⟨?_, ?_⟩, ?_⟩
      · exact hfront.congr fun j _ hj => hother j (by omega)
      · refine holds_cons.mpr ⟨?_, holds_nil _ _⟩
        rw [Nat.zero_add, CArray.get?_set? hset, if_pos rfl]
      · refine holds_cons.mpr ⟨?_, holds_nil _ _⟩
        rw [List.length_append, List.length_singleton, hother _ (by omega)]
        simpa using h.nul
  have hlen : (front ++ [if c = newline then blank else c]).length = (front ++ [c]).length := by
    rw [List.length_append, List.length_append]
    rfl
  have hindex : CArray.index? cliCmdLineLen (((front ++ [c]).length : Int) - 1) =
      some ⟨front.length, hroom⟩ := by
    apply CArray.index?_of_val
    rw [List.length_append, List.length_singleton, Int.natCast_add, Int.natCast_one,
      Int.add_sub_cancel]
  have hshort : (front ++ [c]).length < cliCmdLineLen := by
    rw [List.length_append]
    exact hlt
  obtain ⟨cli', hlower, hget⟩ := cliLower_eq cli₁ hshort
  refine ⟨cli', ?_, strAt_map_toLower hstr fun j hj => ?_, fun j hj => ?_⟩
  · rw [cliPrepare, strlen_eq h, Option.bind_eq_bind, Option.bind_some, hindex, Option.bind_eq_bind,
      Option.bind_some]
    dsimp only
    rw [hcli₁, strlen_eq hstr, Option.bind_some, hlen, if_neg, hlower]
    rw [List.length_append, List.length_singleton]
    exact Nat.not_lt.mpr (Nat.le_of_lt hlt)
  · rw [hget j, if_pos (hlen ▸ hj)]
  · rw [hget j, if_neg (Nat.not_le.mpr hj), hframe j]
    rw [List.length_append, List.length_singleton] at hj
    exact Nat.lt_of_succ_lt hj

theorem cliPrepare_nil (h : StrAt cli 0 []) :
    cliPrepare cli = none := by
  rw [cliPrepare, strlen_eq h]
  rfl

end prepare

/-! ### The callbacks -/

section callback

variable {m : CliMem} {s t : List UInt8} {action args : Option Nat}

theorem cliStrtok_eq (h : StrAt m.cli (args.getD m.saved) s) :
    ∃ m', cliStrtok m args = some (if word cliTokenDelimiter s = [] then none
        else some (args.getD m.saved + (lead cliTokenDelimiter s).length), m') ∧
      Tokenized cliTokenDelimiter m.cli (args.getD m.saved) s m'.saved m'.cli := by
  obtain ⟨saved, cli, hrun, htok⟩ := strtok_eq (show cliTokenDelimiter 0 = false from rfl) h
  refine ⟨⟨cli, saved⟩, ?_, htok⟩
  rw [cliStrtok, hrun]
  rfl

/-- Arguments that are a string in the line are handled in bounds. -/
theorem actionCallback_isSome (callback : CliActionCallback) {args : Nat}
    (h : StrAt m.cli args s) : (actionCallback callback m (some args)).isSome := by
  obtain ⟨m', hrun, htok⟩ :=
    cliStrtok_eq (show StrAt m.cli ((some args).getD m.saved) s from h)
  rw [Option.getD_some] at hrun htok
  by_cases hword : word cliTokenDelimiter s = []
  · rw [if_pos hword] at hrun
    cases callback <;> simp [actionCallback, hrun]
  · rw [if_neg hword] at hrun
    have hread := read_eq (htok.word_at hword)
    have hlen := strlen_eq (htok.word_at hword)
    cases callback with
    | linkList => rfl
    | linkShow =>
        simp only [actionCallback, hrun, Option.bind_eq_bind, Option.bind_some, hread]
        split <;> rfl
    | ipv4List => rfl
    | ipv4Show =>
        simp only [actionCallback, hrun, Option.bind_eq_bind, Option.bind_some, hlen]
        rfl
    | arpList => rfl
    | routeList => rfl

/-- A name that can be read, and lies before an index. -/
def NameBefore (m : CliMem) (bound : Nat) : CliName → Prop
  | .token i => ∃ s, StrAt m.cli i s ∧ i + s.length < bound
  | .literal _ => True

theorem objectCallbackHelp_isSome {oname : Option CliName}
    (h : StrAt m.cli (args.getD m.saved) s)
    (honame : ∀ name, oname = some name → NameBefore m (args.getD m.saved) name) :
    (objectCallbackHelp m oname args).isSome := by
  obtain ⟨m', hrun, htok⟩ := cliStrtok_eq h
  rw [objectCallbackHelp, hrun, Option.bind_eq_bind, Option.bind_some]
  cases oname with
  | none => rfl
  | some name =>
      obtain ⟨chars, hchars⟩ : ∃ chars, name.chars m'.cli = some chars := by
        cases name with
        | literal chars => exact ⟨chars, rfl⟩
        | token i =>
            obtain ⟨w, hw, hlt⟩ := honame (.token i) rfl
            have hw' : StrAt m'.cli i w :=
              hw.congr fun j _ hj => htok.frame j (Or.inl (Nat.lt_of_le_of_lt hj hlt))
            exact ⟨w, read_eq hw'⟩
      simp only [hchars, Option.bind_eq_bind, Option.bind_some]
      cases cliGetObject chars with
      | none => rfl
      | some object =>
          by_cases hword : word cliTokenDelimiter s = []
          · rw [if_pos hword]
            rfl
          · rw [if_neg hword]
            dsimp only
            rw [read_eq (htok.word_at hword)]
            rfl

theorem objectCallback_isSome (callback : CliObjectCallback) (console : Bool)
    (hargs : StrAt m.cli (args.getD m.saved) s) (haction : StrAt m.cli (action.getD m.saved) t)
    (hbefore : ∀ i, action = some i → i + t.length < args.getD m.saved) :
    (objectCallback callback console m action args).isSome := by
  have hliteral (chars : List UInt8) :
      (objectCallbackHelp m (some (.literal chars)) action).isSome := by
    apply objectCallbackHelp_isSome haction
    intro name hname
    obtain rfl := Option.some.inj hname
    trivial
  cases callback with
  | help =>
      apply objectCallbackHelp_isSome hargs
      intro name hname
      obtain ⟨i, rfl, rfl⟩ := Option.map_eq_some_iff.mp hname
      exact ⟨t, haction, hbefore i rfl⟩
  | disconnect => rfl
  | shutdown => rfl
  | link => exact hliteral _
  | ipv4 => exact hliteral _
  | arp => exact hliteral _
  | route => exact hliteral _

end callback

/-! ### The tokens -/

section tokens

variable {cli : CArray cliCmdLineLen UInt8} {text : List UInt8} {console : Bool}

/-- Where the tokens are when both have been found. -/
structure CliTokens (cli : CArray cliCmdLineLen UInt8) (text : List UInt8) (m : CliMem)
    (oname action : Nat) : Prop where
  oname_at : StrAt m.cli oname (cliObjectToken text)
  action_at : StrAt m.cli action (cliActionToken text)
  rest_at : cliBehindAction text ≠ [] →
    StrAt m.cli (action + (cliActionToken text).length + 1) (cliRemainder text)
  last : cliBehindAction text = [] → action + (cliActionToken text).length = text.length ∧
    m.cli.get? (text.length + 1) = cli.get? (text.length + 1)

theorem firstToken (h : StrAt cli 0 text) :
    ∃ m, cliStrtok ⟨cli, 0⟩ (some 0) = some (if cliObjectToken text = [] then none
        else some (lead cliTokenDelimiter text).length, m) ∧
      Tokenized cliTokenDelimiter cli 0 text m.saved m.cli := by
  obtain ⟨m, hrun, htok⟩ :=
    cliStrtok_eq (show StrAt (CliMem.mk cli 0).cli ((some 0).getD (CliMem.mk cli 0).saved) text from h)
  rw [Option.getD_some, Nat.zero_add] at hrun
  exact ⟨m, hrun, htok⟩

theorem cliTokens {m : CliMem} (htok : Tokenized cliTokenDelimiter cli 0 text m.saved m.cli)
    (hobject : cliObjectToken text ≠ []) :
    ∃ m' action, cliStrtok m none =
        some (if cliActionToken text = [] then none else some action, m') ∧
      StrAt m'.cli m'.saved (cliRemainder text) ∧
      (cliActionToken text ≠ [] →
        CliTokens cli text m' (lead cliTokenDelimiter text).length action) := by
  obtain ⟨m', hrun, htok'⟩ := cliStrtok_eq
    (show StrAt m.cli ((none : Option Nat).getD m.saved) (cliBehindObject text) from htok.rest_at)
  rw [Option.getD_none] at hrun htok'
  refine ⟨m', _, hrun, htok'.rest_at, fun haction => ?_⟩
  have hbehind : behind cliTokenDelimiter text ≠ [] := by
    intro hnil
    rw [cliActionToken, cliBehindObject, hnil] at haction
    exact haction rfl
  have hsaved := htok.saved_eq hbehind
  rw [Nat.zero_add] at hsaved
  have hlen := congrArg List.length (lead_append_word cliTokenDelimiter text)
  have hlen' := congrArg List.length (lead_append_word cliTokenDelimiter (cliBehindObject text))
  have htail := List.length_pos_iff.mpr hbehind
  have hdrop : (cliBehindObject text).length = (behind cliTokenDelimiter text).length - 1 :=
    List.length_tail
  simp only [List.length_append] at hlen hlen'
  refine ⟨?_, htok'.word_at haction, fun hne => ?_, fun hnil => ⟨?_, ?_⟩⟩
  · have hobjectAt := htok.word_at hobject
    rw [Nat.zero_add] at hobjectAt
    exact hobjectAt.congr fun j _ hj => htok'.frame j (Or.inl (by
      have hj : j ≤ (lead cliTokenDelimiter text).length + (word cliTokenDelimiter text).length := hj
      omega))
  · have hrest := htok'.rest_at
    rw [htok'.saved_eq hne] at hrest
    exact hrest
  · have hnil : (behind cliTokenDelimiter (cliBehindObject text)).length = 0 :=
      List.length_eq_zero_iff.mpr hnil
    show m.saved + _ + (word cliTokenDelimiter (cliBehindObject text)).length = text.length
    omega
  · rw [htok'.frame _ (Or.inr (by omega)), htok.frame _ (Or.inr (by omega))]

/-- What is done with a line: no callback, one without an action token, or one with the
pointer behind the action token. -/
inductive CliOutcome (console : Bool) (cli : CArray cliCmdLineLen UInt8) (text : List UInt8) :
    Option (PfmCliRetval × Option CliCall) → Prop
  | none (ret : PfmCliRetval) (no : ¬PassesArgs text) :
      CliOutcome console cli text (some (ret, none))
  | noAction (m : CliMem) (ret : PfmCliRetval) (no : ¬PassesArgs text) :
      CliOutcome console cli text (some (ret, some ⟨m, none, none⟩))
  | called (m : CliMem) (oname action : Nat) (callback : Option PfmCliRetval)
      (passes : PassesArgs text) (tokens : CliTokens cli text m oname action)
      (total : StrAt m.cli (action + (cliActionToken text).length + 1) (cliRemainder text) →
        callback.isSome) :
      CliOutcome console cli text (callback.bind fun ret =>
        some (ret, some ⟨m, some action, some (action + (cliActionToken text).length + 1)⟩))

theorem cliDispatch_outcome (console : Bool) (h : StrAt cli 0 text) :
    CliOutcome console cli text (cliDispatch console cli) := by
  obtain ⟨m, hfirst, htok⟩ := firstToken h
  rw [cliDispatch, hfirst, Option.bind_eq_bind, Option.bind_some]
  by_cases hobject : cliObjectToken text = []
  · rw [if_pos hobject]
    refine .none _ fun hpasses => hpasses.1 ?_
    rw [cliActionToken, cliBehindObject, behind_of_word_nil hobject]
    rfl
  rw [if_neg hobject]
  have honame : StrAt m.cli (lead cliTokenDelimiter text).length (cliObjectToken text) := by
    have hword := htok.word_at hobject
    rwa [Nat.zero_add] at hword
  obtain ⟨m', action, hsecond, hsaved, htokens⟩ := cliTokens htok hobject
  simp only [read_eq honame, hsecond, Option.bind_eq_bind, Option.bind_some]
  cases hfound : cliGetObject (cliObjectToken text) with
  | none =>
      refine .none _ fun hpasses => ?_
      obtain ⟨-, object, hobject, -⟩ := hpasses
      rw [hfound] at hobject
      cases hobject
  | some object =>
  by_cases haction : cliActionToken text = []
  · rw [if_pos haction]
    have hnull : StrAt m'.cli ((none : Option Nat).getD m'.saved) (cliRemainder text) := hsaved
    obtain ⟨ret, hret⟩ := Option.isSome_iff_exists.mp
      (objectCallback_isSome object.objectCallback console hnull hnull fun i hi => by cases hi)
    simp only [hret, Option.bind_some]
    exact .noAction m' ret fun hpasses => hpasses.1 haction
  rw [if_neg haction]
  have htokens := htokens haction
  simp only [strlen_eq htokens.action_at, read_eq htokens.oname_at, read_eq htokens.action_at,
    Option.bind_some]
  split
  · rename_i hhelp
    cases hact : cliGetAction (cliActionToken text) object with
    | none =>
        refine .none _ fun hpasses => ?_
        obtain ⟨-, object', hobject', hpass⟩ := hpasses
        obtain rfl := Option.some.inj (hfound.symm.trans hobject')
        rcases hpass with hpass | hpass
        · rw [hhelp] at hpass
          cases hpass
        · rw [hact] at hpass
          cases hpass
    | some act =>
        refine .called m' _ action _ ⟨haction, object, hfound, Or.inr ?_⟩ htokens ?_
        · rw [hact]
          rfl
        · exact actionCallback_isSome act.actionCallback
  · rename_i hhelp
    refine .called m' _ action _ ⟨haction, object, hfound, Or.inl ?_⟩ htokens ?_
    · exact Bool.eq_true_of_not_eq_false hhelp
    · intro hargs
      exact objectCallback_isSome object.objectCallback console hargs htokens.action_at
        (fun i hi => by
          obtain rfl := Option.some.inj hi
          exact Nat.lt_succ_self _)

end tokens

/-! ### Every line -/

section line

variable {console : Bool} {cli cli' : CArray cliCmdLineLen UInt8} {text : List UInt8}

/-- What is behind the action token is the remainder of the line, when a delimiter ends
the token, or when there happens to be a NUL. -/
theorem CliTokens.args_at {m : CliMem} {oname action : Nat} (h : CliTokens cli text m oname action)
    (hok : cliBehindAction text ≠ [] ∨ cli.get? (text.length + 1) = some 0) :
    StrAt m.cli (action + (cliActionToken text).length + 1) (cliRemainder text) := by
  by_cases hbehind : cliBehindAction text = []
  · obtain ⟨hend, hbyte⟩ := h.last hbehind
    have hnul := hok.resolve_left (not_not.mpr hbehind)
    rw [hend, cliRemainder, hbehind]
    exact strAt_nil.mpr (hbyte.trans hnul)
  · exact h.rest_at hbehind

/-- With arguments that are right, a line is handled in bounds. -/
theorem cliDispatch_safe (console : Bool) (h : StrAt cli 0 text)
    (hok : PassesArgs text →
      cliBehindAction text ≠ [] ∨ cli.get? (text.length + 1) = some 0) :
    ∃ ret call, cliDispatch console cli = some (ret, call) ∧ ∀ c, call = some c → ArgsRight text c := by
  have hout := cliDispatch_outcome console h
  generalize cliDispatch console cli = out at hout
  cases hout with
  | none ret => exact ⟨ret, none, rfl, fun c hc => by cases hc⟩
  | noAction m ret =>
      refine ⟨ret, _, rfl, fun c hc action haction => ?_⟩
      obtain rfl := Option.some.inj hc
      cases haction
  | called m oname action callback passes tokens total =>
      have hargs := tokens.args_at (hok passes)
      obtain ⟨ret, rfl⟩ := Option.isSome_iff_exists.mp (total hargs)
      refine ⟨ret, _, rfl, fun c hc a ha => ?_⟩
      obtain rfl := Option.some.inj hc
      exact ⟨_, rfl, hargs⟩

/-- The byte behind the NUL of the line is read as the arguments of an action token
that ends it. -/
theorem cliDispatch_args {ret : PfmCliRetval} {call : Option CliCall} (h : StrAt cli 0 text)
    (hpasses : PassesArgs text) (hbehind : cliBehindAction text = [])
    (hrun : cliDispatch console cli = some (ret, call))
    (hright : ∀ c, call = some c → ArgsRight text c) : cli.get? (text.length + 1) = some 0 := by
  have hout := cliDispatch_outcome console h
  rw [hrun] at hout
  generalize hresult : some (ret, call) = out at hout
  cases hout with
  | none _ no => exact absurd hpasses no
  | noAction _ _ no => exact absurd hpasses no
  | called m oname action callback _ tokens =>
      obtain ⟨ret', -, hcall⟩ := Option.bind_eq_some_iff.mp hresult.symm
      obtain ⟨-, rfl⟩ := Prod.mk.inj (Option.some.inj hcall)
      obtain ⟨args, hargs, hstr⟩ := hright _ rfl action rfl
      obtain rfl := Option.some.inj hargs
      obtain ⟨hend, hbyte⟩ := tokens.last hbehind
      rw [hend, cliRemainder, hbehind] at hstr
      exact hbyte.symm.trans (strAt_nil.mp hstr)

end line

/-- The array when it is full of a byte that is not NUL. -/
def fullOfX : CArray cliCmdLineLen UInt8 := fun _ => 120

/-- `pfm_cli_exec` stays in the array of the line, whatever that holds before, and gives
a callback the remainder of the line, exactly for the lines that do not begin with a
NUL and whose action token, if a callback is called for it, does not end them. -/
theorem cliSafe_iff (input : List UInt8) : CliSafe input ↔ CliLineOk input := by
  rw [CliSafe, CliLineOk]
  generalize hline : fgetsLine (cliCmdLineLen - 1) input = line
  by_cases hempty : line = []
  · refine iff_of_true (fun console cli => ?_) (Or.inl hempty)
    have hfile : fgets cli input = none := fgets_eq_none (hline.trans hempty)
    exact ⟨.cliContinue, none, by rw [pfmCliExec, hfile], fun c hc => by cases hc⟩
  rw [or_iff_right hempty]
  by_cases hnul : line.head? = some 0
  · refine iff_of_false (fun hsafe => ?_) fun hok => hok.1 hnul
    obtain ⟨cli, hread, hstr, -⟩ := fgets_read fullOfX hline hempty
    obtain ⟨ret, call, hrun, -⟩ := hsafe false fullOfX
    rw [(chars_eq_nil_iff hempty).mpr hnul] at hstr
    rw [pfmCliExec, hread] at hrun
    dsimp only at hrun
    rw [cliPrepare_nil hstr] at hrun
    cases hrun
  rw [and_iff_right hnul]
  have hchars := (chars_eq_nil_iff hempty).not.mpr hnul
  -- the line as the callbacks are called
  have hready (cli₀ : CArray cliCmdLineLen UInt8) : ∃ cli,
      (∀ console, pfmCliExec console cli₀ input = cliDispatch console cli) ∧
      StrAt cli 0 (cliText line) ∧ ∀ hi : (cliText line).length + 1 < cliCmdLineLen,
        cli.get? ((cliText line).length + 1) =
          some (((line ++ [0])[(cliText line).length + 1]?).getD (cli₀ ⟨_, hi⟩)) := by
    obtain ⟨cli₁, hread, hstr, hstored⟩ := fgets_read cli₀ hline hempty
    obtain ⟨cli, hprepare, hstr', hframe⟩ := cliPrepare_eq hstr hchars
    refine ⟨cli, fun console => ?_, hstr', fun hi => ?_⟩
    · rw [pfmCliExec, hread]
      dsimp only
      rw [hprepare, Option.bind_some]
    · rw [hframe _ (by rw [length_cliText]; exact Nat.lt_succ_self _), hstored]
  constructor
  · intro hsafe hpasses
    by_cases hbehind : cliBehindAction (cliText line) = []
    swap
    · exact Or.inl hbehind
    obtain ⟨cli, hexec, hstr, hbyte⟩ := hready fullOfX
    obtain ⟨ret, call, hrun, hright⟩ := hsafe false fullOfX
    have hzero := cliDispatch_args hstr hpasses hbehind ((hexec false).symm.trans hrun) hright
    rw [hbyte (CArray.lt_of_get? hzero)] at hzero
    refine Or.inr ?_
    cases hstored : (line ++ [0])[(cliText line).length + 1]? with
    | none =>
        rw [hstored] at hzero
        cases hzero
    | some b =>
        rw [hstored] at hzero
        exact hzero
  · intro hok console cli₀
    obtain ⟨cli, hexec, hstr, hbyte⟩ := hready cli₀
    rw [hexec console]
    apply cliDispatch_safe console hstr
    intro hpasses
    refine (hok hpasses).imp_right fun hstored => ?_
    have hlen := (List.getElem?_eq_some_iff.mp hstored).1
    have hle : line.length ≤ 79 := hline ▸ length_fgetsLine_le _ input
    rw [List.length_append, List.length_singleton] at hlen
    rw [hbyte (by show _ < 80; omega), hstored]
    rfl

/-- The arguments of `link list` without a newline are whatever lies behind its NUL. -/
theorem linkList_not_safe : ¬CliSafe (ascii ['l', 'i', 'n', 'k', ' ', 'l', 'i', 's', 't']) := by
  intro h
  obtain ⟨ret, call, hrun, hright⟩ := h true fullOfX
  obtain ⟨c, hcall, haction, hargs, hbyte⟩ : ∃ c,
      pfmCliExec true fullOfX (ascii ['l', 'i', 'n', 'k', ' ', 'l', 'i', 's', 't']) =
        some (.cliContinue, some c) ∧
      c.action = some 5 ∧ c.args = some 10 ∧ c.mem.cli.get? 10 = some 120 :=
    ⟨_, rfl, rfl, rfl, rfl⟩
  obtain ⟨-, rfl⟩ := Prod.mk.inj (Option.some.inj (hrun.symm.trans hcall))
  obtain ⟨args, hargs', hstr⟩ := hright c rfl 5 haction
  obtain rfl := Option.some.inj (hargs.symm.trans hargs')
  have hnil : cliRemainder (cliText (fgetsLine (cliCmdLineLen - 1)
      (ascii ['l', 'i', 'n', 'k', ' ', 'l', 'i', 's', 't']))) = [] := rfl
  rw [hnil] at hstr
  cases (strAt_nil.mp hstr).symm.trans hbyte

end Pfm

import Pfm.Comm
import Pfm.CString

/-!
# The command line

`pfm_cli_exec` of `pfm_cli.c`, with the objects and actions of `pfm_cli_init` and their
callbacks.  The line lies in the array `cli`; pointers into it are indices, and what
is read or written outside of it is a fault.  What is printed is not part of the model.
-/

namespace Pfm

open BoundedLoop CString

abbrev cliCmdLineLen : Nat := 80

/-- `CLI_TOKEN_DELIMITER`: a blank or a tab. -/
def cliTokenDelimiter (b : UInt8) : Bool := b = 32 || b = 9

/-- The newline, as it is read, and what it is replaced by. -/
abbrev newline : UInt8 := 10
abbrev blank : UInt8 := 32

/-- `pfm_cli_retval_t`. -/
inductive PfmCliRetval where
  | cliContinue
  | cliError
  | cliExit
  | cliShutdown
  deriving DecidableEq

inductive CliActionCallback where
  | linkList
  | linkShow
  | ipv4List
  | ipv4Show
  | arpList
  | routeList
  deriving DecidableEq

inductive CliObjectCallback where
  | help
  | disconnect
  | shutdown
  | link
  | ipv4
  | arp
  | route
  deriving DecidableEq

/-- `pfm_cli_action_t`. -/
structure CliAction where
  actionName : List UInt8
  actionCallback : CliActionCallback

/-- `pfm_cli_object_t`. -/
structure CliObject where
  objectName : List UInt8
  objectCallback : CliObjectCallback
  actionList : List CliAction

def ascii (cs : List Char) : List UInt8 := cs.map fun c => UInt8.ofNat c.toNat

/-- `cli_object_list_g` as `pfm_cli_init` leaves it. -/
def cliObjectList : List CliObject :=
  let list (callback : CliActionCallback) : CliAction := ⟨ascii ['l', 'i', 's', 't'], callback⟩
  let show_ (callback : CliActionCallback) : CliAction := ⟨ascii ['s', 'h', 'o', 'w'], callback⟩
  [⟨ascii ['h', 'e', 'l', 'p'], .help, []⟩,
   ⟨ascii ['d', 'i', 's', 'c', 'o', 'n', 'n', 'e', 'c', 't'], .disconnect, []⟩,
   ⟨ascii ['s', 'h', 'u', 't', 'd', 'o', 'w', 'n'], .shutdown, []⟩,
   ⟨ascii ['l', 'i', 'n', 'k'], .link, [list .linkList, show_ .linkShow]⟩,
   ⟨ascii ['i', 'p', 'v', '4'], .ipv4, [list .ipv4List, show_ .ipv4Show]⟩,
   ⟨ascii ['a', 'r', 'p'], .arp, [list .arpList]⟩,
   ⟨ascii ['r', 'o', 'u', 't', 'e'], .route, [list .routeList]⟩]

/-- `0 == strncmp(a, b, len)` -/
def sameStart (a b : List UInt8) (len : Nat) : Bool := a.take len = b.take len

def cliGetAction (actionName : List UInt8) (object : CliObject) : Option CliAction :=
  object.actionList.find? fun action => sameStart actionName action.actionName actionName.length

def cliGetObject (objectName : List UInt8) : Option CliObject :=
  cliObjectList.find? fun object => sameStart objectName object.objectName objectName.length

/-- The array `cli`, and the pointer that `strtok` keeps. -/
structure CliMem where
  cli : CArray cliCmdLineLen UInt8
  saved : Nat

/-- `strtok(s, CLI_TOKEN_DELIMITER)`, with `none` for NULL. -/
def cliStrtok (m : CliMem) (s : Option Nat) : Option (Option Nat × CliMem) :=
  (strtok cliTokenDelimiter m.cli (s.getD m.saved)).map fun out => (out.1, ⟨out.2.2, out.2.1⟩)

/-! ### The callbacks -/

def isDigit (b : UInt8) : Bool := 48 ≤ b && b ≤ 57

def actionCallback (callback : CliActionCallback) (m : CliMem) (args : Option Nat) :
    Option PfmCliRetval :=
  match callback with
  | .linkList | .ipv4List | .arpList | .routeList => some .cliContinue
  | .linkShow => do
      let (token, m) ← cliStrtok m args
      match token with
      | none => some .cliError
      | some token => do
          let chars ← read m.cli token
          if chars.length = 0 then some .cliError
          else some (if chars.all isDigit then .cliContinue else .cliError)
  | .ipv4Show => do
      let (token, m) ← cliStrtok m args
      match token with
      | none => some .cliError
      | some token => do
          let len ← strlen m.cli token
          some (if len = 0 then .cliError else .cliContinue)

/-- A string in the line, or one of the program. -/
inductive CliName where
  | token (i : Nat)
  | literal (chars : List UInt8)

def CliName.chars (cli : CArray cliCmdLineLen UInt8) : CliName → Option (List UInt8)
  | token i => read cli i
  | literal chars => some chars

def objectCallbackHelp (m : CliMem) (oname : Option CliName) (args : Option Nat) :
    Option PfmCliRetval := do
  let (action, m) ← cliStrtok m args
  match oname with
  | none => some .cliContinue
  | some oname => do
      let oname ← oname.chars m.cli
      match cliGetObject oname, action with
      | none, _ => some .cliError
      -- an error also where the help was printed, to stop further parsing
      | some _, none => some .cliError
      | some object, some action => do
          let action ← read m.cli action
          some (if (cliGetAction action object).isSome then .cliContinue else .cliError)

/-- `console` says that `fpout` is `stdout`. -/
def objectCallback (callback : CliObjectCallback) (console : Bool) (m : CliMem)
    (action args : Option Nat) : Option PfmCliRetval :=
  match callback with
  | .help => objectCallbackHelp m (action.map .token) args
  | .disconnect => some (if console then .cliContinue else .cliExit)
  | .shutdown => some .cliShutdown
  | .link => objectCallbackHelp m (some (.literal (ascii ['l', 'i', 'n', 'k']))) action
  | .ipv4 => objectCallbackHelp m (some (.literal (ascii ['i', 'p', 'v', '4']))) action
  | .arp => objectCallbackHelp m (some (.literal (ascii ['a', 'r', 'p']))) action
  | .route => objectCallbackHelp m (some (.literal (ascii ['r', 'o', 'u', 't', 'e']))) action

/-! ### One command -/

/-- What `fgets` stores: at most `size` bytes, up to the first newline. -/
def fgetsLine : Nat → List UInt8 → List UInt8
  | 0, _ => []
  | _, [] => []
  | size + 1, b :: bs => if b = newline then [b] else b :: fgetsLine size bs

/-- The array after `fgets`, `none` at the end of the file. -/
def fgets (cli : CArray cliCmdLineLen UInt8) (input : List UInt8) :
    Option (CArray cliCmdLineLen UInt8) :=
  let line := fgetsLine (cliCmdLineLen - 1) input
  if line = [] then none else some fun i => ((line ++ [0])[i.val]?).getD (cli i)

def toLower (b : UInt8) : UInt8 := if 65 ≤ b ∧ b ≤ 90 then b + 32 else b

/-- The loop that makes the line lower case, from its NUL down. -/
def cliLower (lineLen : Nat) (cli : CArray cliCmdLineLen UInt8) :
    Option (CArray cliCmdLineLen UInt8) :=
  forRange (fun k cli => do
    let b ← cli.get? (lineLen - k)
    cli.set? (lineLen - k) (toLower b)) (lineLen + 1) cli

/-- The line made ready: a newline at its end is made a blank, and it is made lower
case. -/
def cliPrepare (cli : CArray cliCmdLineLen UInt8) : Option (CArray cliCmdLineLen UInt8) := do
  let lineLen ← strlen cli 0
  let last ← CArray.index? cliCmdLineLen (lineLen - 1)
  let cli : CArray cliCmdLineLen UInt8 :=
    if cli last = newline then Function.update cli last blank else cli
  let lineLen ← strlen cli 0
  cliLower (if cliCmdLineLen < lineLen then cliCmdLineLen else lineLen) cli

/-- A callback that is called: the memory then, and its pointers into it. -/
structure CliCall where
  mem : CliMem
  action : Option Nat
  args : Option Nat

/-- From the first `strtok` on: the value returned, and the callback called. -/
def cliDispatch (console : Bool) (cli : CArray cliCmdLineLen UInt8) :
    Option (PfmCliRetval × Option CliCall) := do
  let (oname, m) ← cliStrtok ⟨cli, 0⟩ (some 0)
  match oname with
  | none => some (.cliContinue, none)
  | some oname => do
      let name ← read m.cli oname
      match cliGetObject name with
      | none => some (.cliError, none)
      | some object => do
          let (action, m) ← cliStrtok m none
          match action with
          | none => do
              let ret ← objectCallback object.objectCallback console m none none
              some (ret, some ⟨m, none, none⟩)
          | some action => do
              let args := action + (← strlen m.cli action) + 1
              let name ← read m.cli oname
              if sameStart name (ascii ['h', 'e', 'l', 'p']) name.length = false then do
                let actionName ← read m.cli action
                match cliGetAction actionName object with
                | none => some (.cliError, none)
                | some act => do
                    let ret ← actionCallback act.actionCallback m (some args)
                    some (ret, some ⟨m, some action, some args⟩)
              else do
                let ret ← objectCallback object.objectCallback console m (some action) (some args)
                some (ret, some ⟨m, some action, some args⟩)

/-- `cli` is what the array holds before, and `input` what is left of `fpin`. -/
def pfmCliExec (console : Bool) (cli : CArray cliCmdLineLen UInt8) (input : List UInt8) :
    Option (PfmCliRetval × Option CliCall) :=
  match fgets cli input with
  | none => some (.cliContinue, none)
  | some cli => (cliPrepare cli).bind (cliDispatch console)

end Pfm

import Debugpy.Common.Channel
import Debugpy.Lib.Shell

/-!
# The command line of the launcher

`launchers.spawn_debuggee`: the command line, and what is done to it when the
client has a shell interpret it.
-/

namespace Debugpy.Launchers

def launcherAddress (localhost : String) (host : String) (port : Int) : String :=
  if host = localhost then toString port else host ++ ":" ++ toString port

def interpreter (sudoRequested : Bool) (python : List String) : List String :=
  (if sudoRequested then ["sudo", "-E"] else []) ++ python

/-- `cmdline`; `host` and `port` are the address of the listener. -/
def commandLine (localhost : String) (sudoRequested : Bool) (python : List String)
    (launcherPath : String) (host : String) (port : Int) (args : List String) : List String :=
  interpreter sudoRequested python ++ [launcherPath] ++
    [launcherAddress localhost host port, "--"] ++ args

-- ---------------------------------------------------------------------------
-- Quoting for a shell
-- ---------------------------------------------------------------------------

def defaultQuote (osName : String) : String := if osName ≠ "nt" then "\"" else "'"

def quoteChar (terminalQuoteCharacter : Option String) (osName : String) : String :=
  terminalQuoteCharacter.getD (defaultQuote osName)

/-- `s` starts and ends with `mark`. -/
def wrapped (mark : Char) (s : String) : Bool :=
  s.toList.head? = some mark && s.toList.getLast? = some mark

def needsQuotes (s : String) : Bool :=
  s.toList.contains ' ' && !(wrapped '"' s || wrapped '\'' s)

def quoteArg (quote s : String) : String := if needsQuotes s then quote ++ s ++ quote else s

/-- The loop; `previous` is `args[i-1]`, none when `i` is 0. -/
def quoteLoop (quote : String) : Option String → List String → List String
  | _, [] => []
  | previous, s :: args =>
    if previous = some "--" then quoteArg quote s :: args
    else quoteArg quote s :: quoteLoop quote (some (quoteArg quote s)) args

def terminalArgs (shellExpandArgs : Bool) (quote : String) (cmdline : List String) : List String :=
  if shellExpandArgs then quoteLoop quote none cmdline else cmdline

/-- Up to and including the first argument after `"--"`. -/
def uptoTarget : List String → List String
  | [] => []
  | s :: args => if s = "--" then s :: args.take 1 else s :: uptoTarget args

def afterTarget (args : List String) : List String := args.drop (uptoTarget args).length

theorem quoteArg_eq_separator : quoteArg quote s = "--" ↔ s = "--" := by
  unfold quoteArg
  split
  · rename_i hneeds
    have hspace : ' ' ∈ s.toList := by simp_all [needsQuotes]
    constructor
    · intro h
      have hmem : ' ' ∈ (quote ++ s ++ quote).toList := by simp [hspace]
      rw [h] at hmem
      exact absurd hmem (by decide)
    · rintro rfl
      exact absurd hspace (by decide)
  · rfl

/-- The arguments up to the target are quoted, the others are left as they are. -/
theorem quoteLoop_eq (hprevious : previous ≠ some "--") : quoteLoop quote previous args =
    (uptoTarget args).map (quoteArg quote) ++ afterTarget args := by
  induction args generalizing previous with
  | nil => rfl
  | cons s args ih =>
    rw [quoteLoop, if_neg hprevious]
    by_cases hs : s = "--"
    · have hquote : quoteArg quote "--" = "--" := quoteArg_eq_separator.mpr rfl
      subst hs
      cases args <;> simp [quoteLoop, uptoTarget, afterTarget, hquote]
    · have hsep : some (quoteArg quote s) ≠ some "--" := by
        simpa [quoteArg_eq_separator] using hs
      simp [ih hsep, uptoTarget, afterTarget, hs]

def joined (args : List String) : List Char := [' '].intercalate (args.map String.toList)

def spaced (args : List String) : List Char := args.flatMap fun s => ' ' :: s.toList

/-- A shell reads the arguments up to the target as they were, and is left with
the others as they were. -/
def Preserved (args : List String) : Prop :=
  Shell.readWords (uptoTarget args).length
      (joined (terminalArgs true (quoteChar none "posix") args)) =
    some ((uptoTarget args).map String.toList, spaced (afterTarget args))

/-- The loop gets `s` through the shell. -/
def WordSafe (s : String) : Prop := Shell.Safe (needsQuotes s) s.toList

theorem spaced_append : spaced (args ++ args') = spaced args ++ spaced args' :=
  List.flatMap_append

theorem cons_joined (h : args ≠ []) : ' ' :: joined args = spaced args := by
  obtain ⟨s, args, rfl⟩ := List.exists_cons_of_ne_nil h
  clear h
  induction args generalizing s with
  | nil => simp [joined, spaced]
  | cons s' args ih =>
    have hspaced := ih s'
    simp only [joined, spaced, List.map_cons, List.flatMap_cons, List.intercalate_cons_cons,
      List.cons_append, List.cons.injEq, true_and] at *
    simp [hspaced]

theorem atSpace_spaced (args : List String) : Shell.AtSpace (spaced args) := by
  cases args <;> simp [Shell.AtSpace, spaced]

theorem spaced_quoted (args : List String) : spaced (args.map (quoteArg "\"")) =
    Shell.line (args.map fun s => (needsQuotes s, s.toList)) := by
  have hrender (s : String) :
      (quoteArg "\"" s).toList = Shell.render (needsQuotes s) s.toList := by
    unfold quoteArg Shell.render
    split <;> simp
  simp [spaced, Shell.line, List.flatMap_map, hrender]

theorem readWords_quoted (args rest : List String) :
    Shell.readWords args.length (spaced (args.map (quoteArg "\"") ++ rest)) =
      some (args.map String.toList, spaced rest) ↔ ∀ s ∈ args, WordSafe s := by
  have hline := @Shell.readWords_line_iff _ (args.map fun s => (needsQuotes s, s.toList))
    (atSpace_spaced rest)
  rw [spaced_append, spaced_quoted]
  simpa [WordSafe, Function.comp_def] using hline

/-- The loop keeps the arguments exactly when each one it handles is safe. -/
theorem preserved_iff (args : List String) :
    Preserved args ↔ ∀ s ∈ uptoTarget args, WordSafe s := by
  have hargs : terminalArgs true (quoteChar none "posix") args =
      (uptoTarget args).map (quoteArg "\"") ++ afterTarget args := quoteLoop_eq (by simp)
  rw [Preserved, hargs, ← readWords_quoted _ (afterTarget args)]
  rcases args with _ | ⟨s, args⟩
  · simp [uptoTarget, afterTarget, joined, spaced, Shell.readWords]
  · obtain ⟨args', hcons⟩ : ∃ args', uptoTarget (s :: args) = s :: args' := by
      by_cases hs : s = "--" <;> simp [uptoTarget, hs]
    have hne : (s :: args').map (quoteArg "\"") ++ afterTarget (s :: args) ≠ [] := by simp
    rw [hcons, ← cons_joined hne, List.length_cons, Shell.readWords_blank rfl]

example : Preserved (commandLine "127.0.0.1" true ["/opt/python with space/python.sh"]
    "/opt/debugpy/launcher" "127.0.0.1" 5678 ["main.py", "0", "$1", "2"]) := by
  unfold Preserved
  decide +kernel

/-- Quotes inside a path that has a space are taken for the end of the quoted text. -/
theorem inner_quotes_lost : ¬ Preserved
    (commandLine "127.0.0.1" false ["/usr/bin/python3"] "/opt/debugpy/launcher" "127.0.0.1" 5678
      ["/home/me/my \"old\" app.py"]) := by
  unfold Preserved
  decide +kernel

end Debugpy.Launchers

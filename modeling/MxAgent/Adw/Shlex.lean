import MxAgent.Foundations.Fallible
import MxAgent.Adw.Js

/-! `shlex.split` in POSIX mode and without comments, which the Python driver splits its gate
commands with. -/
namespace MxAgent.Adw

open Fallible

/-- `shlex.whitespace`. -/
def isBlankChar (c : Char) : Bool := c == ' ' || c == '\t' || c == '\r' || c == '\n'

def backslash : Char := '\\'

inductive LexError where
  | noClosingQuotation
  | noEscapedCharacter
  deriving DecidableEq

/-- The state of `read_token`, with the reversed token and whether part of it was quoted. After an
escape the state is that of the quote, if any. -/
inductive LexState where
  | between
  | word (token : List Char) (quoted : Bool)
  | quoted (quote : Char) (token : List Char)
  | escaped (quote : Option Char) (token : List Char) (quoted : Bool)

/-- An empty token counts if it was quoted. -/
def emitToken (token : List Char) (quoted : Bool) (words : List String) : List String :=
  if token.isEmpty && !quoted then words else String.ofList token.reverse :: words

/-- The tokens from a state on. In double quotes a backslash stays unless it is in front of another
one or of the quote. -/
def lexFrom : LexState → List Char → Except LexError (List String)
  | .between, [] => .ok []
  | .word token quoted, [] => .ok (emitToken token quoted [])
  | .quoted _ _, [] => .error .noClosingQuotation
  | .escaped _ _ _, [] => .error .noEscapedCharacter
  | .between, c :: text =>
    if isBlankChar c then lexFrom .between text
    else if c == backslash then lexFrom (.escaped none [] false) text
    else if isQuote c then lexFrom (.quoted c []) text
    else lexFrom (.word [c] false) text
  | .word token quoted, c :: text =>
    if isBlankChar c then (lexFrom .between text).map (emitToken token quoted)
    else if isQuote c then lexFrom (.quoted c token) text
    else if c == backslash then lexFrom (.escaped none token quoted) text
    else lexFrom (.word (c :: token) quoted) text
  | .quoted quote token, c :: text =>
    if c == quote then lexFrom (.word token true) text
    else if c == backslash && quote == '"' then lexFrom (.escaped (some quote) token true) text
    else lexFrom (.quoted quote (c :: token)) text
  | .escaped none token quoted, c :: text => lexFrom (.word (c :: token) quoted) text
  | .escaped (some quote) token _, c :: text =>
    if c == backslash || c == quote then lexFrom (.quoted quote (c :: token)) text
    else lexFrom (.quoted quote (c :: backslash :: token)) text

def shlexSplit (command : String) : Except LexError (List String) :=
  lexFrom .between command.toList

end MxAgent.Adw

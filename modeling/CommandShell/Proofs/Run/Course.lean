import Mathlib.Data.List.Basic
import CommandShell.Session.Run

/-! The course of a run: what happens in it, moment by moment.
Each rule says how a task goes on, and what it comes to when it ends, fails or is cut off on the
way. A run that ends is a course that ends, with the same result in the same shell. -/
namespace CommandShell

variable {κ : Type}

/-- What a moment lies inside of. -/
inductive Frame
  | expansion (name line : String)
  | substitution (line : String)
  | command (path : String) (args : List String)

/-- What an error that was raised inside is outside. -/
def Frame.carry : Frame → ShellError → ShellError
  | substitution _,.exit code => .exit code
  | substitution line,e => .evaluation ("$(" ++ line ++ ")") (.shell e)
  | expansion _ _,e | command _ _,e => e

inductive Happening (κ : Type)
  | line (text : String)
  | statement (s : Statement)
  | call (path : String) (args : List String)
  | request (r : Request κ)
  /-- A command came to its end. -/
  | ended (action : κ) (path : String) (args : List String) (result : Except Failure Value)
  /-- An error is reported, and the line goes on. -/
  | reported (e : ShellError)
  /-- An error arises outside of commands. -/
  | raised (e : ShellError)

def Happening.error? : Happening κ → Option ShellError
  | ended _ path args (.error f) => some (f.raise path args)
  | raised e => some e
  | _ => none

structure Moment (κ : Type) where
  /-- The outermost first. -/
  around : List Frame
  shell : Shell κ
  what : Happening κ

namespace Moment

def now (s : Shell κ) (h : Happening κ) : Moment κ := ⟨[],s,h⟩

def inside (f : Frame) (m : Moment κ) : Moment κ := { m with around := f :: m.around }

/-- The error of this moment as it is outside of all frames. -/
def carried (m : Moment κ) (e : ShellError) : ShellError := m.around.foldr Frame.carry e

end Moment

/-- All that a session can be about to do. -/
inductive Task (κ : Type)
  | line (text : String)
  | statements (last : Option Value) (rest : List Statement)
  | statement (s : Statement)
  | fragments (a : Reentry.Assembly) (rest : List Fragment)
  | parts (rest : List Word.Part)
  | substitution (line : String)
  | call (path : String) (args : List String)
  | expansion (name line : String)
  | program (p : Program κ Value)

abbrev Task.Yield : Task κ → Type
  | line _ | statements _ _ | statement _ | expansion _ _ => Option Value
  | fragments _ _ => Reentry.Assembly
  | parts _ => List String
  | substitution _ => String
  | call _ _ => Value
  | program _ => Except Failure Value

/-- Why a task is not done. -/
inductive Halt
  /-- Nobody waited for the rest of it. -/
  | cut
  | failed (e : ShellError)

namespace Halt

def carry (f : Frame) : Halt → Halt
  | cut => cut
  | failed e => failed (f.carry e)

/-- The line goes on after it. -/
def Passes (c : Config) : Halt → Prop
  | cut => False
  | failed e => c.onError = .proceed ∧ e.isRecoverable = true

end Halt

namespace Shell

def updated (s : Shell κ) (f : Session → Session) : Shell κ := { s with session := f s.session }

def synced (s : Shell κ) : Shell κ := { s with kernel := s.kernel.synced }

def resolve (s : Shell κ) (path : String) : Except ShellError (Resolution κ) :=
  s.session.resolve s.kernel.synced.names.tree path

def capture (s : Shell κ) : Shell κ :=
  s.updated fun t => { t with console := t.console.capture }

def release (s : Shell κ) : Shell κ :=
  s.updated fun t => { t with console := t.console.release.2 }

def deeper (s : Shell κ) : Shell κ := s.updated fun t => { t with aliasDepth := t.aliasDepth + 1 }

def shallower (s : Shell κ) : Shell κ :=
  s.updated fun t => { t with aliasDepth := t.aliasDepth - 1 }

end Shell

/-- The text of a substitution whose line came to `value` and wrote `bytes`. -/
def Task.substituted (bytes : Bytes) (value : Option Value) : String :=
  if bytes = [] then (value.map Value.text).getD ""
  else String.ofList ((Text.decode bytes).toList.reverse.dropWhile (· = '\n')).reverse

/-- What is run of the command when it is called with these arguments. -/
inductive Command.Starts (c : Command κ) (verbatim : Bool) (args : List String) :
    (Invocation → Program κ Value) → Prop
  | verbatim (h : verbatim = true) : Starts c verbatim args c.verbatim
  | bound {body} (h : verbatim = false) (hb : c.bind args = .ok (.ready body)) :
      Starts c verbatim args body

/-- The session answers the request without running anything. -/
def Request.Direct : Request κ → Prop
  | execute _ | run _ _ | executeAlias _ _ => False
  | _ => True

inductive Request.Nested :
    (r : Request κ) → (t : Task κ) → (Except ShellError t.Yield → r.Answer) → Prop
  | execute {l} : Nested (.execute l) (.line l) id
  | run {path args} : Nested (.run path args) (.call path args) id
  | executeAlias {name l} : Nested (.executeAlias name l) (.expansion name l) id

namespace Engine

/-- What calls come to that run nothing. -/
inductive Outright (engine : Engine κ) (path : String) (args : List String) (s : Shell κ) :
    Except ShellError Value → Shell κ → Prop
  | unresolved {e} (h : s.resolve path = .error e) : Outright engine path args s (.error e) s.synced
  | group {g} (h : s.resolve path = .ok (.group g)) :
      Outright engine path args s (.error (.isAGroup g.text)) s.synced
  | usage {p r e} (h : s.resolve path = .ok (.command p r)) (hv : r.descriptor.verbatim = false)
      (hb : (engine.command r.descriptor.action).bind args = .error e) :
      Outright engine path args s (.error (.usage e)) s.synced
  | helped {p r text c} (h : s.resolve path = .ok (.command p r))
      (hv : r.descriptor.verbatim = false)
      (hb : (engine.command r.descriptor.action).bind args = .ok (.help text))
      (hw : s.session.console.write .output (Text.encode (Text.trimmedEnd text ++ "\n")) = .ok c) :
      Outright engine path args s (.ok (.status 0)) (s.synced.withConsole c)
  | unhelped {p r text e} (h : s.resolve path = .ok (.command p r))
      (hv : r.descriptor.verbatim = false)
      (hb : (engine.command r.descriptor.action).bind args = .ok (.help text))
      (hw : s.session.console.write .output (Text.encode (Text.trimmedEnd text ++ "\n")) =
        .error e) :
      Outright engine path args s (.error (.io e)) s.synced

open Moment (now inside)

/-- The courses that a task can take: from one shell to another, with all that happens between. -/
inductive Runs (engine : Engine κ) :
    (t : Task κ) → Shell κ → List (Moment κ) → Except Halt t.Yield → Shell κ → Prop
  | cut {t s} : Runs engine t s [] (.error .cut) s
  | unfinished {l s e} (h : Line.parse l = .error e) :
      Runs engine (.line l) s [now s (.line l),now s (.raised (.unfinished e))]
        (.error (.failed (.unfinished e))) s
  | parsed {l s p τ o s'} (h : Line.parse l = .ok p)
      (hs : Runs engine (.statements none p.statements) s τ o s') :
      Runs engine (.line l) s (now s (.line l) :: τ) o s'
  | done {last s} : Runs engine (.statements last []) s [] (.ok last) s
  | next {last st rest s τ v s' τ' o s''} (h : Runs engine (.statement st) s τ (.ok v) s')
      (hr : Runs engine (.statements (v.or last) rest) s' τ' o s'') :
      Runs engine (.statements last (st :: rest)) s (τ ++ τ') o s''
  | stopped {last st rest s τ x s'} (h : Runs engine (.statement st) s τ (.error x) s')
      (hx : ¬x.Passes s'.session.config) :
      Runs engine (.statements last (st :: rest)) s τ (.error x) s'
  | reported {last st rest s τ e s' c τ' o s''}
      (h : Runs engine (.statement st) s τ (.error (.failed e)) s')
      (hx : (Halt.failed e).Passes s'.session.config)
      (hw : s'.session.console.write .errors (Text.encode (e.message ++ "\n")) = .ok c)
      (hr : Runs engine (.statements (some (.status 1)) rest) (s'.withConsole c) τ' o s'') :
      Runs engine (.statements last (st :: rest)) s (τ ++ now s' (.reported e) :: τ') o s''
  | unreported {last st rest s τ e s' io}
      (h : Runs engine (.statement st) s τ (.error (.failed e)) s')
      (hx : (Halt.failed e).Passes s'.session.config)
      (hw : s'.session.console.write .errors (Text.encode (e.message ++ "\n")) = .error io) :
      Runs engine (.statements last (st :: rest)) s (τ ++ [now s' (.raised (.io io))])
        (.error (.failed (.io io))) s'
  | unexpanded {st s τ x s'}
      (h : Runs engine (.fragments ⟨[],""⟩ st.fragments) s τ (.error x) s') :
      Runs engine (.statement st) s (now s (.statement st) :: τ) (.error x) s'
  | blank {st s τ a s'} (h : Runs engine (.fragments ⟨[],""⟩ st.fragments) s τ (.ok a) s')
      (ha : a.flush.words = []) :
      Runs engine (.statement st) s (now s (.statement st) :: τ) (.ok none) s'
  | called {st s τ a s' path args τ' o s''}
      (h : Runs engine (.fragments ⟨[],""⟩ st.fragments) s τ (.ok a) s')
      (ha : a.flush.words = path :: args) (hc : Runs engine (.call path args) s' τ' o s'') :
      Runs engine (.statement st) s (now s (.statement st) :: τ ++ τ') (o.map some) s''
  | assembled {a s} : Runs engine (.fragments a []) s [] (.ok a) s
  | space {a rest s τ o s'} (h : Runs engine (.fragments a.flush rest) s τ o s') :
      Runs engine (.fragments a (.space :: rest)) s τ o s'
  | verbatim {a text rest s τ o s'} (h : Runs engine (.fragments (a.add text) rest) s τ o s') :
      Runs engine (.fragments a (.verbatim text :: rest)) s τ o s'
  | text {a f text rest s τ ts s' τ' o s''} (hf : f = .plain text ∨ f = .quoted text)
      (h : Runs engine (.parts (Word.split text)) s τ (.ok ts) s')
      (hr : Runs engine (.fragments (a.add (String.join ts)) rest) s' τ' o s'') :
      Runs engine (.fragments a (f :: rest)) s (τ ++ τ') o s''
  | textFailed {a f text rest s τ x s'} (hf : f = .plain text ∨ f = .quoted text)
      (h : Runs engine (.parts (Word.split text)) s τ (.error x) s') :
      Runs engine (.fragments a (f :: rest)) s τ (.error x) s'
  | split {s} : Runs engine (.parts []) s [] (.ok []) s
  | literal {text rest s τ o s'} (h : Runs engine (.parts rest) s τ o s') :
      Runs engine (.parts (.literal text :: rest)) s τ (o.map (text :: ·)) s'
  | parameter {x rest s v τ o s'} (hv : s.session.evaluator x s.session.environment = .ok v)
      (h : Runs engine (.parts rest) s τ o s') :
      Runs engine (.parts (.parameter x :: rest)) s τ (o.map (v.text :: ·)) s'
  | parameterFailed {x rest s text e}
      (hv : s.session.evaluator x s.session.environment = .error text)
      (he : e = .evaluation ("$\x7b" ++ x ++ "\x7d") (.message text)) :
      Runs engine (.parts (.parameter x :: rest)) s [now s (.raised e)] (.error (.failed e)) s
  | replaced {l rest s τ text s' τ' o s''} (h : Runs engine (.substitution l) s τ (.ok text) s')
      (hr : Runs engine (.parts rest) s' τ' o s'') :
      Runs engine (.parts (.command l :: rest)) s (τ.map (inside (.substitution l)) ++ τ')
        (o.map (text :: ·)) s''
  | unreplaced {l rest s τ x s'} (h : Runs engine (.substitution l) s τ (.error x) s') :
      Runs engine (.parts (.command l :: rest)) s (τ.map (inside (.substitution l)))
        (.error (x.carry (.substitution l))) s'
  | captured {l s τ o s'} (h : Runs engine (.line l) s.capture τ o s') :
      Runs engine (.substitution l) s τ (o.map (Task.substituted s'.session.console.release.1))
        s'.release
  | outright {path args s v s'} (h : engine.Outright path args s (.ok v) s') :
      Runs engine (.call path args) s [now s (.call path args)] (.ok v) s'
  | outrightFailed {path args s e s'} (h : engine.Outright path args s (.error e) s') :
      Runs engine (.call path args) s [now s (.call path args),now s' (.raised e)]
        (.error (.failed e)) s'
  | aliased {path args s a τ o s'} (h : s.resolve path = .ok (.aliased a))
      (he : Runs engine (.expansion a.name (a.expand args)) s.synced τ o s') :
      Runs engine (.call path args) s (now s (.call path args) :: τ) (o.map (·.getD .null)) s'
  | ran {path args s p r body τ result s'} (h : s.resolve path = .ok (.command p r))
      (hb : (engine.command r.descriptor.action).Starts r.descriptor.verbatim args body)
      (hp : Runs engine (.program (body ⟨path,args⟩)) s.synced τ (.ok result) s') :
      Runs engine (.call path args) s (now s (.call path args) ::
          τ.map (inside (.command path args)) ++
            [now s' (.ended r.descriptor.action path args result)])
        (result.mapError fun f => .failed (f.raise path args)) s'
  | ranCut {path args s p r body τ x s'} (h : s.resolve path = .ok (.command p r))
      (hb : (engine.command r.descriptor.action).Starts r.descriptor.verbatim args body)
      (hp : Runs engine (.program (body ⟨path,args⟩)) s.synced τ (.error x) s') :
      Runs engine (.call path args) s
        (now s (.call path args) :: τ.map (inside (.command path args))) (.error x) s'
  | refused {name l s} (h : s.session.config.maxAliasDepth ≤ s.session.aliasDepth) :
      Runs engine (.expansion name l) s
        [now s (.raised (.aliasDepthExceeded name s.session.config.maxAliasDepth))]
        (.error (.failed (.aliasDepthExceeded name s.session.config.maxAliasDepth))) s
  | expanded {name l s τ o s'} (h : s.session.aliasDepth < s.session.config.maxAliasDepth)
      (hl : Runs engine (.line l) s.deeper τ o s') :
      Runs engine (.expansion name l) s (τ.map (inside (.expansion name l))) o s'.shallower
  | finished {v s} : Runs engine (.program (.done v)) s [] (.ok (.ok v)) s
  | failed {f s} : Runs engine (.program (.fail f)) s [] (.ok (.error f)) s
  | answered {r next s a s' τ o s''} (hd : r.Direct)
      (ha : engine.answer (engine.reentry 0) r s = some (a,s'))
      (h : Runs engine (.program (next a)) s' τ o s'') :
      Runs engine (.program (.ask r next)) s (now s (.request r) :: τ) o s''
  | nested {r t give next s τ a s' τ' o s''} (hr : r.Nested t give)
      (h : Runs engine t s τ (a.mapError .failed) s')
      (hn : Runs engine (.program (next (give a))) s' τ' o s'') :
      Runs engine (.program (.ask r next)) s (now s (.request r) :: τ ++ τ') o s''
  | nestedCut {r t give next s τ s'} (hr : r.Nested t give)
      (h : Runs engine t s τ (.error .cut) s') :
      Runs engine (.program (.ask r next)) s (now s (.request r) :: τ) (.error .cut) s'

end Engine
end CommandShell

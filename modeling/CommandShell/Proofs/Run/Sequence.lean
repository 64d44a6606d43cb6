import CommandShell.Builtin
import CommandShell.Proofs.Line.Break
import CommandShell.Session.Run

/-! Running a text of several lines.
Between two lines nothing is carried along but the shell and the last result, so a text does what
its lines do one after the other. -/
namespace CommandShell

variable {κ : Type}

/-- Runs lines one by one until one fails. The result is that of the last one that has one. -/
def Reentry.executeAll (inner : Reentry κ) (lines : List String) : ShellAct κ (Option Value) :=
  lines.foldlM (fun last line => (·.or last) <$> inner.execute line) none

def Line.joined (lines : List String) (last : String) : String :=
  lines.foldr (fun line text => line ++ "\n" ++ text) last

namespace Engine

variable (engine : Engine κ) (inner : Reentry κ)

theorem nextStatement_eq (last : Option Value) (s : Statement) :
    engine.nextStatement inner last s = (·.or last) <$> engine.nextStatement inner none s := by
  refine ExceptT.ext ?_
  rw [ExceptT.run_map]
  simp only [nextStatement,ExceptT.run_mk,map_bind]
  refine bind_congr fun result => ?_
  cases result with
  | ok value => simp [Except.map]
  | error e =>
    simp only [map_bind]
    refine bind_congr fun session => ?_
    split
    · simp only [map_bind,map_pure]
      refine bind_congr fun reported => ?_
      cases reported <;> rfl
    · rfl

theorem foldlM_nextStatement (last : Option Value) (statements : List Statement) :
    statements.foldlM (engine.nextStatement inner) last =
      (·.or last) <$> statements.foldlM (engine.nextStatement inner) none := by
  induction statements generalizing last with
  | nil => simp
  | cons s statements ih =>
    simp only [List.foldlM_cons]
    rw [nextStatement_eq,bind_map_left,map_bind]
    refine bind_congr fun value => ?_
    rw [ih (value.or last),ih value,Functor.map_map]
    simp only [Option.or_assoc]

variable {a b : String}

/-- The statements of the second line run after those of the first, in the shell that these left. -/
theorem runLine_append (ha : Line.Complete a) {tokens : List Token}
    (hb : Token.scan b = .ok tokens) : engine.runLine inner (a ++ "\n" ++ b) =
      engine.runLine inner a >>= fun last => (·.or last) <$> engine.runLine inner b := by
  have hsecond : Line.parse b = .ok (Line.ofTokens tokens) := by simp [Line.parse,hb,Except.map]
  obtain ⟨first,hfirst,hboth⟩ := ha.parse_append hsecond
  simp only [runLine,hfirst,hsecond,hboth,List.foldlM_append]
  exact bind_congr fun last => engine.foldlM_nextStatement inner last _

theorem execute_append (n : Nat) (ha : Line.Complete a) {tokens : List Token}
    (hb : Token.scan b = .ok tokens) : (engine.reentry n).execute (a ++ "\n" ++ b) =
      (engine.reentry n).execute a >>= fun last =>
        (·.or last) <$> (engine.reentry n).execute b := by
  cases n with
  | zero => rfl
  | succ n => exact engine.runLine_append (engine.reentry n) ha hb

theorem scan_joined {lines : List String} (hl : ∀ line ∈ lines, Line.Complete line)
    {tokens : List Token} (hb : Token.scan b = .ok tokens) :
    ∃ tokens, Token.scan (Line.joined lines b) = .ok tokens := by
  induction lines with
  | nil => exact ⟨tokens,hb⟩
  | cons line lines ih =>
    obtain ⟨after,hafter⟩ := ih fun other hm => hl other (List.mem_cons_of_mem _ hm)
    have hline := hl line List.mem_cons_self
    obtain ⟨before,hbefore⟩ := hline.scans
    exact ⟨_,hline.scan_append hbefore hafter⟩

end Engine

theorem Reentry.executeAll_cons (inner : Reentry κ) (line : String) (lines : List String) :
    inner.executeAll (line :: lines) =
      inner.execute line >>= fun last => (·.or last) <$> inner.executeAll lines := by
  have hlast : ∀ last : Option Value,
      lines.foldlM (fun last line => (·.or last) <$> inner.execute line) last =
        (·.or last) <$> inner.executeAll lines := by
    intro last
    unfold executeAll
    induction lines generalizing last with
    | nil => simp
    | cons line lines ih =>
      simp only [List.foldlM_cons,map_bind,bind_map_left]
      refine bind_congr fun value => ?_
      rw [ih (value.or last),ih (value.or none),Functor.map_map]
      simp only [Option.or_none,Option.or_assoc]
  rw [executeAll,List.foldlM_cons,bind_map_left]
  simp only [Option.or_none,hlast]

namespace Engine

variable (engine : Engine κ)

theorem execute_joined (n : Nat) {lines : List String} {last : String}
    (hl : ∀ line ∈ lines, Line.Complete line) {tokens : List Token}
    (hb : Token.scan last = .ok tokens) :
    (engine.reentry n).execute (Line.joined lines last) =
      (engine.reentry n).executeAll (lines ++ [last]) := by
  induction lines with
  | nil => simp [Line.joined,Reentry.executeAll]
  | cons line lines ih =>
    have hrest : ∀ other ∈ lines, Line.Complete other := fun other hm =>
      hl other (List.mem_cons_of_mem _ hm)
    obtain ⟨after,hafter⟩ := scan_joined hrest hb
    rw [List.cons_append,Reentry.executeAll_cons,← ih hrest]
    exact engine.execute_append n (hl line List.mem_cons_self) hafter

/-- A line that can be scanned, put after a complete one and a line break, adds its statements to
those of that line; both run as the first line and then, unless that fails, the second, with the
result of the second where it has one. So a text of complete lines runs as its lines one by one. -/
theorem execute_in_order {a b : String} (ha : Line.Complete a) {tokens : List Token}
    (hb : Token.scan b = .ok tokens) :
    (∃ first second, Line.parse a = .ok first ∧ Line.parse b = .ok second ∧
      Line.parse (a ++ "\n" ++ b) = .ok ⟨first.statements ++ second.statements⟩) ∧
    (∀ n, (engine.reentry n).execute (a ++ "\n" ++ b) = do
      let last ← (engine.reentry n).execute a
      let value ← (engine.reentry n).execute b
      return value.or last) ∧
    ∀ n lines, (∀ line ∈ lines, Line.Complete line) →
      (engine.reentry n).execute (Line.joined lines b) =
        (engine.reentry n).executeAll (lines ++ [b]) := by
  have hsecond : Line.parse b = .ok (Line.ofTokens tokens) := by simp [Line.parse,hb,Except.map]
  obtain ⟨first,hfirst,hboth⟩ := ha.parse_append hsecond
  refine ⟨⟨first,_,hfirst,hsecond,hboth⟩,fun n => ?_,fun n lines hl =>
    engine.execute_joined n hl hb⟩
  rw [engine.execute_append n ha hb]
  simp only [map_eq_pure_bind]

def ofBuiltins : Engine Builtin := ⟨Builtin.command,fun _ _ _ _ => .error .notFound⟩

/-- A comment ends with its line, and quotes may hold a line break. -/
theorem execute_in_order_commented :
    Line.Complete "set X 1 # one" ∧ Token.scan "echo $X 'a\nb'" = .ok [.plain "echo",.space,
      .plain "$X",.space,.verbatim "a\nb"] ∧
    (∀ line ∈ ["set X 1 # one","cd /"], Line.Complete line) ∧
    ∀ n, (ofBuiltins.reentry n).execute "set X 1 # one\ncd /\necho $X 'a\nb'" =
      (ofBuiltins.reentry n).executeAll ["set X 1 # one","cd /","echo $X 'a\nb'"] := by
  have hfirst : Line.Complete "set X 1 # one" := by decide +kernel
  have hscan : Token.scan "echo $X 'a\nb'" = .ok [.plain "echo",.space,.plain "$X",.space,
      .verbatim "a\nb"] := by decide +kernel
  have hlines : ∀ line ∈ ["set X 1 # one","cd /"], Line.Complete line := by decide +kernel
  have htext : Line.joined ["set X 1 # one","cd /"] "echo $X 'a\nb'" =
      "set X 1 # one\ncd /\necho $X 'a\nb'" := by decide +kernel
  refine ⟨hfirst,hscan,hlines,fun n => ?_⟩
  rw [← htext]
  exact (execute_in_order ofBuiltins hfirst hscan).2.2 n _ hlines

end Engine
end CommandShell

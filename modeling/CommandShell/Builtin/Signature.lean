import CommandShell.Arguments
import CommandShell.Arguments.Usage
import CommandShell.Text.Integer

/-! The commands that every shell has: their names, arguments and explanations. -/
namespace CommandShell

inductive Builtin
  | echo
  | exit
  | aliases
  | unalias
  | set
  | unset
  | cd
  | pwd
  | ls
  | which
  | help
  deriving DecidableEq

namespace Builtin

def all : List Builtin := [echo,exit,unalias,set,unset,cd,pwd,ls,which,help,aliases]

def name : Builtin → String
  | echo => "echo"
  | exit => "exit"
  | aliases => "alias"
  | unalias => "unalias"
  | set => "set"
  | unset => "unset"
  | cd => "cd"
  | pwd => "pwd"
  | ls => "ls"
  | which => "which"
  | help => "help"

def description : Builtin → String
  | echo => "print arguments"
  | exit => "end the session"
  | aliases => "define or list aliases"
  | unalias => "remove an alias"
  | set => "set or list session variables"
  | unset => "remove a session variable"
  | cd => "change the current group"
  | pwd => "show the current group"
  | ls => "list a group"
  | which => "show what a name resolves to"
  | help => "list commands"

def usage : Builtin → Usage
  | echo => ⟨"echo [-n] [args...]","write the arguments to standard output, separated by " ++
      "spaces. by default, a trailing newline is printed.",[],
      [("-n, --no-newline","do not output the trailing newline.")]⟩
  | exit => ⟨"exit [--] [<code>]","End the session.",
      [("code","status to exit with, 0 when omitted.")],[]⟩
  | aliases => ⟨"alias [args...]","Define or list aliases.",[],[]⟩
  | unalias => ⟨"unalias [--] <name>","Remove an alias.",[("name","alias to remove.")],[]⟩
  | set => ⟨"set [args...]","Set a session variable, or list all of them. " ++
      "`set NAME` alone sets NAME to the empty string.",[],[]⟩
  | unset => ⟨"unset [--] <name>","Remove a session variable.",
      [("name","variable to remove.")],[]⟩
  | cd => ⟨"cd [--] [<target>]",
      "Change the current group. If no target is provided, changes to the root.",
      [("target","group to switch to; absolute or relative to the current group.")],[]⟩
  | pwd => ⟨"pwd","Show the current group.",[],[]⟩
  | ls => ⟨"ls [-m <match>] [--] [<group>]",
      "List the contents of a group. Groups are shown with a trailing `/`.",
      [("group","group to list, the current group when omitted.")],
      [("-m, --match","only show names matching this regular expression.")]⟩
  | which => ⟨"which [--] <name>","Show what a name resolves to.",
      [("name","name to resolve.")],[]⟩
  | help => ⟨"help","List registered commands with their descriptions.",[],[]⟩

def status (text : String) : Except Integer.Fault Int :=
  Integer.parse Int32.minValue.toInt Int32.maxValue.toInt text

def checkStatus (text : String) : Option String :=
  match status text with
  | .ok _ => none
  | .error fault => some fault.message

open Arguments in
def signature : Builtin → Signature
  | echo => ⟨[⟨["-n","--no-newline"],"no-newline",none⟩],[⟨"args",.rest,anything⟩]⟩
  | exit => ⟨[],[⟨"code",.optional,checkStatus⟩]⟩
  | aliases | set => ⟨[],[⟨"args",.rest,anything⟩]⟩
  | unalias | unset | which => ⟨[],[⟨"name",.required,anything⟩]⟩
  | cd => ⟨[],[⟨"target",.optional,anything⟩]⟩
  | ls => ⟨[⟨["-m","--match"],"match",some anything⟩],[⟨"group",.optional,anything⟩]⟩
  | pwd | help => ⟨[],[]⟩

end Builtin
end CommandShell

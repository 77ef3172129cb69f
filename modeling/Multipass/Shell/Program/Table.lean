import Multipass.Shell.Program.Condition
import Multipass.Shell.Program.Edit
import Multipass.Shell.Program.Encode
import Multipass.Shell.Program.Expression
import Multipass.Shell.Program.Find
import Multipass.Shell.Program.Counts
import Multipass.Shell.Program.Lines
import Multipass.Shell.Program.Print
import Multipass.Shell.Program.Search
import Multipass.Shell.Program.Sort
import Multipass.Shell.Program.Translate

/-!
# The programs of the system

The programs by their names.
-/

namespace Multipass.Shell

/-- A program of the system by its name. -/
def systemProgram? (name : String) : Option Program :=
  match name with
  | "[" | "test" => some (condition .system name "")
  | "base64" => some base64
  | "basename" => some basename
  | "cat" => some cat
  | "chmod" => some chmod
  | "cksum" => some cksum
  | "cmp" => some cmp
  | "comm" => some comm
  | "cp" => some cp
  | "cut" => some cut
  | "dirname" => some dirname
  | "echo" => some (echo .system)
  | "egrep" => some (grep (some 'E'))
  | "expand" => some expand
  | "expr" => some expr
  | "false" => some (ending 1)
  | "fgrep" => some (grep (some 'F'))
  | "find" => some find
  | "fold" => some fold
  | "grep" => some (grep none)
  | "head" => some head
  | "ln" => some ln
  | "ls" => some ls
  | "md5sum" => some (digests "md5sum" md5)
  | "mkdir" => some mkdir
  | "mv" => some mv
  | "nl" => some nl
  | "nproc" => some (constantly "1")
  | "od" => some od
  | "paste" => some paste
  | "printenv" => some printenv
  | "printf" => some (printf .system "")
  | "pwd" => some pwd
  | "readlink" => some readlink
  | "realpath" => some realpath
  | "rev" => some rev
  | "rm" => some rm
  | "rmdir" => some rmdir
  | "sed" => some sed
  | "seq" => some seq
  | "sha1sum" => some (digests "sha1sum" sha1)
  | "sha256sum" => some (digests "sha256sum" Digest.sha256)
  | "sleep" => some sleep
  | "sort" => some sortLines
  | "stat" => some stat
  | "sync" => some (ending 0)
  | "tac" => some tac
  | "tail" => some tail
  | "tee" => some tee
  | "touch" => some touch
  | "tr" => some tr
  | "true" => some (ending 0)
  | "uname" => some uname
  | "uniq" => some uniq
  | "wc" => some wc
  | "whoami" => some (constantly "root")
  | "yes" => some yes
  | _ => none

/-- The programs of the system that start others. -/
def starters : List String :=
  ["dash", "env", "nice", "nohup", "sh", "timeout", "which", "xargs"]

/-- Holds of the name of a program of the system. -/
def isSystemProgram (name : String) : Bool :=
  starters.contains name || (systemProgram? name).isSome

/-- The name of a program in one of the places where the system keeps its programs. -/
def systemName? (path : String) : Option String :=
  ["/bin/", "/usr/bin/"].findSome? fun place =>
    ((Text.dropPattern? place.toList path.toList).map String.ofList).filter isSystemProgram

end Multipass.Shell

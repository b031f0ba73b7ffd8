/-!
Home directories in file names: a tilde stands for that of the program, and a tilde with the name
of an account for that of the account.
-/
namespace LineCalc

/-- Home directories by account. The program's own has the empty name. -/
abbrev Homes := List (String × String)

namespace Homes

/-- The name with the home directory at its start written out. Where there is none, as with an
    account that is not known, the name stays as it is. -/
def expand (homes : Homes) (name : String) : String :=
  match name.toList with
  | '~' :: rest =>
    let account := rest.takeWhile (· != '/')
    match homes.lookup (String.ofList account) with
    | some home =>
      let home := (home.toList.reverse.dropWhile (· == '/')).reverse
      match home ++ rest.drop account.length with
      | [] => "/"
      | path => String.ofList path
    | none => name
  | _ => name

/-- Only a name that begins with a tilde is changed. -/
theorem expand_of_head_ne (homes : Homes) {name : String}
    (other : name.toList.head? ≠ some '~') : homes.expand name = name := by
  unfold expand
  split
  · rename_i tilde
    exact absurd (by rw [tilde]; rfl) other
  · rfl

/-- The accounts that a system has from the start. The program runs under that of the system. -/
def standard : Homes :=
  [("", "/root"), ("root", "/root"), ("daemon", "/usr/sbin"), ("bin", "/bin"), ("sys", "/dev"),
    ("sync", "/bin"), ("games", "/usr/games"), ("man", "/var/cache/man"),
    ("lp", "/var/spool/lpd"), ("mail", "/var/mail"), ("news", "/var/spool/news"),
    ("uucp", "/var/spool/uucp"), ("proxy", "/bin"), ("www-data", "/var/www"),
    ("backup", "/var/backups"), ("list", "/var/list"), ("irc", "/run/ircd"),
    ("_apt", "/nonexistent"), ("nobody", "/nonexistent")]

/-- The home directories in a table of accounts, each line of which holds seven fields between
    colons: the name is the first and the directory the sixth. -/
def ofTable (table : String) : Homes :=
  (table.splitOn "\n").filterMap fun line =>
    match line.splitOn ":" with
    | [name, _, _, _, _, home, _] => some (name, home)
    | _ => none

end Homes

end LineCalc

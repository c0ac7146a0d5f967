import SoloCall.Config

namespace SoloCall

structure Invocation where
  program : Text
  args : List Text := []
  cwd : Path
  deriving DecidableEq, Repr

namespace Invocation

def withArgs (i : Invocation) (args : List Text) : Invocation := { i with args := i.args ++ args }

def display (i : Invocation) : Text := Text.join [' '] (i.program :: i.args)

end Invocation

structure Tool where
  program : Text
  args : List Text := []
  deriving DecidableEq, Repr

namespace Tool

/-- The words of a command line; a blank one means the fallback program. -/
def parse (value fallback : Text) : Tool :=
  match value.words with
  | [] => ⟨fallback, []⟩
  | program :: args => ⟨program, args⟩

def invoke (t : Tool) (cwd : Path) : Invocation := ⟨t.program, t.args, cwd⟩

end Tool

structure Toolchain where
  python : Tool := ⟨"python3".toList, []⟩
  node : Tool := ⟨"node".toList, []⟩
  tsRuntime : Tool := ⟨"node".toList, []⟩
  javac : Tool := ⟨"javac".toList, []⟩
  java : Tool := ⟨"java".toList, []⟩
  go : Tool := ⟨"go".toList, []⟩
  cc : Tool := ⟨"gcc".toList, []⟩
  cxx : Tool := ⟨"g++".toList, []⟩
  deriving DecidableEq, Repr

namespace Toolchain

def ofConfig (c : Config) : Toolchain :=
  let tool (name : String) (fallback : Tool) : Tool :=
    Tool.parse ((c.get? (Config.key name)).getD []) fallback.program
  let standard : Toolchain := {}
  { python := tool "PYTHON" standard.python
    node := tool "NODE" standard.node
    tsRuntime := tool "TS_RUNTIME" standard.tsRuntime
    javac := tool "JAVAC" standard.javac
    java := tool "JAVA" standard.java
    go := tool "GO" standard.go
    cc := tool "CC" standard.cc
    cxx := tool "CXX" standard.cxx }

end Toolchain

end SoloCall

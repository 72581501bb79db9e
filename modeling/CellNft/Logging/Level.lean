/-
CellNft.Logging.Level — how severe a log line is.
-/
import CellNft.Text.Basic

namespace CellNft.Logging

inductive Level where
  | trace | debug | info | success | warning | error | critical
deriving DecidableEq, Inhabited

namespace Level

def all : List Level := [trace, debug, info, success, warning, error, critical]

def name : Level → String
  | trace => "TRACE"
  | debug => "DEBUG"
  | info => "INFO"
  | success => "SUCCESS"
  | warning => "WARNING"
  | error => "ERROR"
  | critical => "CRITICAL"

/-- Levels are ordered by these numbers. -/
def number : Level → Nat
  | trace => 5
  | debug => 10
  | info => 20
  | success => 25
  | warning => 30
  | error => 40
  | critical => 50

def ofName? (name : Text) : Option Level := all.find? fun l => Text.ofString l.name = name

end Level
end CellNft.Logging

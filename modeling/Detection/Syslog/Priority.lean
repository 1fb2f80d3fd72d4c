/-! # Facility and severity of a syslog line -/

namespace Detection

inductive Facility where
  | kern
  | user
  | mail
  | daemon
  | auth
  | syslog
  | lpr
  | news
  | uucp
  | cron
  | authpriv
  | ftp
  | ntp
  | security
  | console
  | solarisCron
  | local0
  | local1
  | local2
  | local3
  | local4
  | local5
  | local6
  | local7
  deriving DecidableEq, Repr

namespace Facility

def all : List Facility :=
  [.kern, .user, .mail, .daemon, .auth, .syslog, .lpr, .news, .uucp, .cron, .authpriv, .ftp, .ntp,
    .security, .console, .solarisCron, .local0, .local1, .local2, .local3, .local4, .local5,
    .local6, .local7]

def name : Facility → String
  | .kern => "KERN"
  | .user => "USER"
  | .mail => "MAIL"
  | .daemon => "DAEMON"
  | .auth => "AUTH"
  | .syslog => "SYSLOG"
  | .lpr => "LPR"
  | .news => "NEWS"
  | .uucp => "UUCP"
  | .cron => "CRON"
  | .authpriv => "AUTHPRIV"
  | .ftp => "FTP"
  | .ntp => "NTP"
  | .security => "SECURITY"
  | .console => "CONSOLE"
  | .solarisCron => "SOLARIS_CRON"
  | .local0 => "LOCAL0"
  | .local1 => "LOCAL1"
  | .local2 => "LOCAL2"
  | .local3 => "LOCAL3"
  | .local4 => "LOCAL4"
  | .local5 => "LOCAL5"
  | .local6 => "LOCAL6"
  | .local7 => "LOCAL7"

def number : Facility → Nat
  | .kern => 0
  | .user => 1
  | .mail => 2
  | .daemon => 3
  | .auth => 4
  | .syslog => 5
  | .lpr => 6
  | .news => 7
  | .uucp => 8
  | .cron => 9
  | .authpriv => 10
  | .ftp => 11
  | .ntp => 12
  | .security => 13
  | .console => 14
  | .solarisCron => 15
  | .local0 => 16
  | .local1 => 17
  | .local2 => 18
  | .local3 => 19
  | .local4 => 20
  | .local5 => 21
  | .local6 => 22
  | .local7 => 23

def ofNumber? (n : Int) : Option Facility := all.find? fun x => (x.number : Int) = n

def ofName? (name : String) : Option Facility := all.find? (·.name = name)

end Facility

inductive Severity where
  | emergency
  | alert
  | critical
  | error
  | warning
  | notice
  | informational
  | debug
  deriving DecidableEq, Repr

namespace Severity

def all : List Severity :=
  [.emergency, .alert, .critical, .error, .warning, .notice, .informational, .debug]

def name : Severity → String
  | .emergency => "EMERGENCY"
  | .alert => "ALERT"
  | .critical => "CRITICAL"
  | .error => "ERROR"
  | .warning => "WARNING"
  | .notice => "NOTICE"
  | .informational => "INFORMATIONAL"
  | .debug => "DEBUG"

def number : Severity → Nat
  | .emergency => 0
  | .alert => 1
  | .critical => 2
  | .error => 3
  | .warning => 4
  | .notice => 5
  | .informational => 6
  | .debug => 7

def ofNumber? (n : Int) : Option Severity := all.find? fun x => (x.number : Int) = n

def ofName? (name : String) : Option Severity := all.find? (·.name = name)

end Severity

/-- The number in front of a line, from which facility and severity can be told again. -/
def priority (facility : Facility) (severity : Severity) : Nat :=
  facility.number * 8 + severity.number

end Detection

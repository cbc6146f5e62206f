/-
**What the backends write: the systemd unit, the launchd plist and the BusyBox script.**
-/

import IrohTunnel.Service.Pin

namespace IrohTunnel.Service

open IrohTunnel.Library

/-! ### systemd -/

namespace Systemd

/-- Which line a quoted word goes on. -/
inductive Expand
  /-- `ExecStart=`: a literal `$` is doubled. -/
  | command
  /-- `Environment=`: `$` stays literal. -/
  | environment
  deriving DecidableEq, Repr

/-- A character that needs no quotes. -/
def isPlain (char : Char) : Bool := char.isAlphanum || "_@+=:,./-".toList.contains char

/-- A text with what systemd reads specially escaped. -/
def escaped (arg : List Char) (line : Expand) : List Char :=
  let text := Text.replaceChar '%' ['%', '%']
    (Text.replaceChar '"' ['\\', '"'] (Text.replaceChar '\\' ['\\', '\\'] arg))
  match line with
  | .command => Text.replaceChar '$' ['$', '$'] text
  | .environment => text

/-- Quote one word for a systemd unit line. -/
def quoteArg (arg : String) (line : Expand) : String :=
  if arg ≠ "" ∧ arg.toList.all isPlain then arg
  else String.ofList ('"' :: escaped arg.toList line ++ ['"'])

def formatUnitWith (role : String) (binary config state : OsPath) (policy : RestartPolicy)
    (pin : Option Pin) : String :=
  let binary := quoteArg binary.toStringLossy .command
  let config := quoteArg config.toStringLossy .command
  let stateEnv := quoteArg s!"{ENV_STATE_DIR}={state.toStringLossy}" .environment
  let restart := if policy.onFailure then "on-failure" else "no"
  let pinComment := pin.elim [] fun pin => [s!"# {pin.record}"]
  let trustEnv := pin.elim [] fun pin =>
    let var := s!"{ENV_TRUSTED_UID}={pin.uid}"
    [s!"Environment={quoteArg var .environment}"]
  Text.unlines (pinComment ++ [
    "[Unit]",
    s!"Description=Iroh Tunnel ({role})",
    "After=network-online.target",
    "Wants=network-online.target",
    "",
    "[Service]",
    "Type=simple",
    s!"ExecStart={binary} {role} run --config {config}",
    s!"Environment={stateEnv}"] ++ trustEnv ++ [
    s!"Restart={restart}",
    s!"RestartSec={policy.delaySecs}",
    "RestartPreventExitStatus=6",
    "",
    "[Install]",
    "WantedBy=default.target"])

end Systemd

/-! ### launchd -/

namespace Launchd

/-- The job label; the suffix for tests is empty. -/
def label (role : String) : String := s!"dev.iroh-tunnel.{role}"

def xmlEscape (text : String) : String :=
  String.ofList (Text.replaceChar '>' "&gt;".toList (Text.replaceChar '<' "&lt;".toList
    (Text.replaceChar '&' "&amp;".toList text.toList)))

def formatPlistWith (role : String) (binary config state : OsPath) (policy : RestartPolicy)
    (pin : Option Pin) : String :=
  let label := xmlEscape (label role)
  let binary := xmlEscape binary.toStringLossy
  let role := xmlEscape role
  let config := xmlEscape config.toStringLossy
  let state := xmlEscape state.toStringLossy
  let keepAlive :=
    if policy.onFailure then [
      "\t<key>KeepAlive</key>",
      "\t<dict>",
      "\t\t<key>SuccessfulExit</key>",
      "\t\t<false/>",
      "\t</dict>"]
    else []
  let pinComment := pin.elim [] fun pin => [s!"<!-- {pin.record} -->"]
  let trustEnv := pin.elim [] fun pin => [
    s!"\t\t<key>{ENV_TRUSTED_UID}</key>",
    s!"\t\t<string>{pin.uid}</string>"]
  Text.unlines (["<?xml version=\"1.0\" encoding=\"UTF-8\"?>"] ++ pinComment ++ [
    "<!DOCTYPE plist PUBLIC \"-//Apple//DTD PLIST 1.0//EN\" " ++
      "\"http://www.apple.com/DTDs/PropertyList-1.0.dtd\">",
    "<plist version=\"1.0\">",
    "<dict>",
    "\t<key>Label</key>",
    s!"\t<string>{label}</string>",
    "\t<key>ProgramArguments</key>",
    "\t<array>",
    s!"\t\t<string>{binary}</string>",
    s!"\t\t<string>{role}</string>",
    "\t\t<string>run</string>",
    "\t\t<string>--config</string>",
    s!"\t\t<string>{config}</string>",
    "\t</array>",
    "\t<key>EnvironmentVariables</key>",
    "\t<dict>",
    s!"\t\t<key>{ENV_STATE_DIR}</key>",
    s!"\t\t<string>{state}</string>"] ++ trustEnv ++ [
    "\t</dict>",
    "\t<key>RunAtLoad</key>",
    "\t<true/>"] ++ keepAlive ++ [
    "</dict>",
    "</plist>"])

end Launchd

/-! ### BusyBox -/

namespace Busybox

def formatScript (role : String) (binary config state : OsPath) (pin : Option Pin) : String :=
  let binary := binary.toStringLossy
  let config := config.toStringLossy
  let state := state.toStringLossy
  let pidfile := s!"/var/run/iroh-tunnel-{role}.pid"
  let logfile := s!"/var/log/iroh-tunnel-{role}.log"
  let pinLines := pin.elim [] fun pin => [
    s!"# {pin.record}",
    s!"export {ENV_TRUSTED_UID}={pin.uid}"]
  Text.unlines ([
    "#!/bin/sh",
    "# Auto-generated by `iroh-tunnel service install` — do not edit by hand.",
    s!"# BusyBox/SysV init script for iroh-tunnel ({role}).",
    "",
    s!"DAEMON=\"{binary}\"",
    s!"ROLE=\"{role}\"",
    s!"CONFIG=\"{config}\"",
    s!"export {ENV_STATE_DIR}=\"{state}\""] ++ pinLines ++ [
    s!"PIDFILE=\"{pidfile}\"",
    s!"LOG=\"{logfile}\"",
    "",
    "start() \x7b",
    "    if [ -f \"$PIDFILE\" ] && kill -0 \"$(cat \"$PIDFILE\" 2>/dev/null)\" 2>/dev/null; then",
    "        echo \"iroh-tunnel ($ROLE) already running (pid $(cat \"$PIDFILE\"))\"",
    "        return 0",
    "    fi",
    "    echo \"Starting iroh-tunnel ($ROLE)\"",
    "    \"$DAEMON\" \"$ROLE\" run --config \"$CONFIG\" >> \"$LOG\" 2>&1 &",
    "    echo $! > \"$PIDFILE\"",
    "\x7d",
    "",
    "stop() \x7b",
    "    if [ ! -f \"$PIDFILE\" ]; then return 0; fi",
    "    PID=\"$(cat \"$PIDFILE\" 2>/dev/null)\"",
    "    if [ -n \"$PID\" ] && kill -0 \"$PID\" 2>/dev/null; then",
    "        echo \"Stopping iroh-tunnel ($ROLE) (pid $PID)\"",
    "        kill -TERM \"$PID\" 2>/dev/null || true",
    "        # Give iroh-tunnel up to 5s to drain on SIGTERM, then force-kill.",
    "        i=0",
    "        while [ \"$i\" -lt 5 ] && kill -0 \"$PID\" 2>/dev/null; do",
    "            sleep 1; i=$((i + 1))",
    "        done",
    "        kill -0 \"$PID\" 2>/dev/null && kill -KILL \"$PID\" 2>/dev/null || true",
    "    fi",
    "    rm -f \"$PIDFILE\"",
    "\x7d",
    "",
    "status() \x7b",
    "    if [ -f \"$PIDFILE\" ] && kill -0 \"$(cat \"$PIDFILE\" 2>/dev/null)\" 2>/dev/null; then",
    "        echo \"iroh-tunnel ($ROLE) is running (pid $(cat \"$PIDFILE\"))\"",
    "        return 0",
    "    fi",
    "    echo \"iroh-tunnel ($ROLE) is not running\"",
    "    return 3",
    "\x7d",
    "",
    "case \"$1\" in",
    "    start) start ;;",
    "    stop) stop ;;",
    "    restart) stop; start ;;",
    "    status) status ;;",
    "    *) echo \"Usage: $0 \x7bstart|stop|restart|status\x7d\"; exit 1 ;;",
    "esac",
    "exit $?"])

end Busybox

end IrohTunnel.Service

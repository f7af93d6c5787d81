import Alerting.Digest.Blake3
import Alerting.Table
import Alerting.Text.Digits

/-!
# Fingerprints

The fingerprint of an alert is its identity from tick to tick. It is the beginning of the digest of a sequence of
fields, the first of which names the family; every field is preceded by its length, so no two sequences of fields
give the same bytes.
-/

namespace Alerting.Fingerprint

/-- The eight bytes of a number below `2 ^ 64`, the lowest first. -/
def lengthBytes (n : Nat) : List UInt8 := (List.range 8).map fun i => UInt8.ofNat (n / Nat.pow 256 i)

/-- A field with its length in front. -/
def framed (field : String) : List UInt8 :=
  let bytes := field.toUTF8.toList
  lengthBytes bytes.length ++ bytes

/-- The bytes of a sequence of fields. -/
def preimage (fields : List String) : List UInt8 := fields.flatMap framed

/-- The number of hexadecimal digits of a fingerprint. -/
def size : Nat := 16

def hexByte (b : UInt8) : List Char := [Text.hexDigit (b.toNat / 16), Text.hexDigit (b.toNat % 16)]

/-- The fingerprint of a sequence of fields. -/
def ofFields (fields : List String) : String :=
  String.ofList (((Blake3.digest (preimage fields)).flatMap hexByte).take size)

/-- The fields of one series of a metrics rule under one of its severities. -/
def metricFields (rule severity : String) (labels : Table String) : List String :=
  "metrics" :: rule :: severity :: labels.toList.flatMap fun e => [e.1, e.2]

/-- The fields of a rule that has at most one alert. -/
def ruleFields (rule : String) : List String := ["rule", rule]

/-- The fields of an anomalous trace. -/
def traceFields (rule service trace : String) : List String := ["trace", rule, service, trace]

/-- The fields of a monitored endpoint. -/
def cloudFields (rule metric endpoint : String) : List String := ["cloud", rule, metric, endpoint]

/-- The fields of a group of warning events. -/
def kubeFields (rule ns reason object : String) : List String := ["kube", rule, ns, reason, object]

def ofMetric (rule severity : String) (labels : Table String) : String := ofFields (metricFields rule severity labels)

def ofRule (rule : String) : String := ofFields (ruleFields rule)

def ofTrace (rule service trace : String) : String := ofFields (traceFields rule service trace)

def ofCloud (rule metric endpoint : String) : String := ofFields (cloudFields rule metric endpoint)

def ofKube (rule ns reason object : String) : String := ofFields (kubeFields rule ns reason object)

end Alerting.Fingerprint

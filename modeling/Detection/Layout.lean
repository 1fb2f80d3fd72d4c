import Detection.Kind

/-! # Layouts: the pairs that follow the protocol, kind by kind

A layout names each pair and the attribute it shows. It is written down apart from the fields a kind
declares.
-/

namespace Detection

/-- The form a pair shows its attribute in. -/
inductive Shown where
  | plain
  | colonHex
  | commandLine
  | credentials
  deriving DecidableEq, Repr

structure Slot where
  label : String
  source : String := label
  shown : Shown := .plain
  deriving DecidableEq, Repr

namespace Layout

def plain (names : List String) : List Slot := names.map fun name => { label := name }

/-! ## Pairs that kinds share -/

def session : List Slot :=
  plain ["start_time", "duration", "orig_pkts", "resp_pkts", "orig_l2_bytes", "resp_l2_bytes"]

def httpSession : List Slot :=
  plain ["method", "host", "uri", "referer", "version", "user_agent", "request_len", "response_len",
    "status_code", "status_msg", "username", "password", "cookie", "content_encoding",
    "content_type", "cache_control", "filenames", "mime_types", "body", "state"]

def dnsExchange : List Slot :=
  plain ["query", "answer", "trans_id", "rtt", "qclass", "qtype", "rcode", "aa_flag", "tc_flag",
    "rd_flag", "ra_flag", "ttl"]

def ftpSession : List Slot :=
  plain ["user", "password"] ++ [{ label := "commands", shown := .commandLine }]

def ldapOperation : List Slot :=
  plain ["message_id", "version", "opcode", "result", "diagnostic_message", "object", "argument"]

def period : List Slot := plain ["start_time", "end_time"]

/-! ## Pairs of one kind -/

def blocklistConn : List Slot := plain ["conn_state", "service", "orig_bytes", "resp_bytes"]

def networkThreat : List Slot :=
  plain ["service", "content", "db_name", "rule_id", "matched_to", "cluster_id", "attack_kind"]

def httpThreat : List Slot :=
  plain ["db_name", "rule_id", "matched_to", "cluster_id", "attack_kind"]

def cryptocurrencyMiningPool : List Slot := plain ["coins"]

def ftpBruteForce : List Slot := plain ["user_list", "start_time", "end_time", "is_internal"]

def ldapBruteForce : List Slot :=
  { label := "user_pw_list", shown := .credentials } :: plain ["start_time", "end_time"]

def blocklistRdp : List Slot := plain ["cookie"]

def blocklistTls : List Slot :=
  plain ["server_name", "alpn_protocol", "ja3", "version", "client_cipher_suites",
    "client_extensions", "cipher", "extensions", "ja3s", "serial", "subject_country",
    "subject_org_name", "subject_common_name", "validity_not_before", "validity_not_after",
    "subject_alt_name", "issuer_country", "issuer_org_name", "issuer_org_unit_name",
    "issuer_common_name", "last_alert"]

def blocklistSmtp : List Slot :=
  plain ["mailfrom", "date"] ++ { label := "from", source := "from_" } ::
    plain ["to", "subject", "agent", "state"]

def blocklistSsh : List Slot :=
  plain ["client", "server", "cipher_alg", "mac_alg", "compression_alg", "kex_alg", "host_key_alg",
    "hassh_algorithms", "hassh", "hassh_server_algorithms", "hassh_server", "client_shka",
    "server_shka"]

def blocklistKerberos : List Slot :=
  plain ["client_time", "server_time", "error_code", "client_realm", "cname_type", "client_name",
    "realm", "sname_type", "service_name"]

def blocklistNtlm : List Slot :=
  plain ["protocol", "username", "hostname", "domainname", "success"]

def blocklistSmb : List Slot :=
  plain ["command", "path", "service", "file_name", "file_size", "resource_type", "fid",
    "create_time", "access_time", "write_time", "change_time"]

def blocklistMqtt : List Slot :=
  plain ["protocol", "version", "client_id", "connack_reason", "subscribe", "suback_reason"]

def blocklistNfs : List Slot := plain ["read_files", "write_files"]

def blocklistRadius : List Slot :=
  plain ["id", "code", "resp_code", "auth", "resp_auth", "user_name", "user_passwd", "chap_passwd",
    "nas_ip", "nas_port", "state", "nas_id", "nas_port_type", "message"]

def blocklistBootp : List Slot :=
  plain ["op", "htype", "hops", "xid", "ciaddr", "yiaddr", "siaddr", "giaddr"] ++
    { label := "chaddr", shown := .colonHex } :: plain ["sname", "file"]

def blocklistDhcp : List Slot :=
  plain ["msg_type", "ciaddr", "yiaddr", "siaddr", "giaddr", "subnet_mask", "router",
    "domain_name_server", "req_ip_addr", "lease_time", "server_id", "param_req_list", "message",
    "renewal_time", "rebinding_time"] ++
    { label := "class_id", shown := .colonHex } :: plain ["client_id_type"] ++
    [{ label := "client_id", shown := .colonHex }]

def blocklistDceRpc : List Slot := plain ["rtt", "named_pipe", "endpoint", "operation"]

end Layout

/-- The pairs of a kind between the protocol and the confidence, in order. -/
def Kind.layout : Kind → List Slot
  | .portScan => Layout.period
  | .multiHostPortScan => Layout.period
  | .externalDdos => Layout.period
  | .blocklistConn => Layout.session ++ Layout.blocklistConn
  | .networkThreat => Layout.session ++ Layout.networkThreat
  | .httpThreat => Layout.session ++ Layout.httpSession ++ Layout.httpThreat
  | .domainGenerationAlgorithm => Layout.session ++ Layout.httpSession
  | .nonBrowser => Layout.session ++ Layout.httpSession
  | .blocklistHttp => Layout.session ++ Layout.httpSession
  | .repeatedHttpSessions => Layout.period
  | .dnsCovertChannel => Layout.session ++ Layout.dnsExchange
  | .lockyRansomware => Layout.session ++ Layout.dnsExchange
  | .cryptocurrencyMiningPool =>
    Layout.session ++ Layout.dnsExchange ++ Layout.cryptocurrencyMiningPool
  | .blocklistDns => Layout.session ++ Layout.dnsExchange
  | .ftpBruteForce => Layout.ftpBruteForce
  | .ftpPlainText => Layout.session ++ Layout.ftpSession
  | .blocklistFtp => Layout.session ++ Layout.ftpSession
  | .ldapBruteForce => Layout.ldapBruteForce
  | .ldapPlainText => Layout.session ++ Layout.ldapOperation
  | .blocklistLdap => Layout.session ++ Layout.ldapOperation
  | .rdpBruteForce => Layout.period
  | .blocklistRdp => Layout.session ++ Layout.blocklistRdp
  | .blocklistTls => Layout.session ++ Layout.blocklistTls
  | .blocklistSmtp => Layout.session ++ Layout.blocklistSmtp
  | .blocklistSsh => Layout.session ++ Layout.blocklistSsh
  | .blocklistKerberos => Layout.session ++ Layout.blocklistKerberos
  | .blocklistNtlm => Layout.session ++ Layout.blocklistNtlm
  | .blocklistSmb => Layout.session ++ Layout.blocklistSmb
  | .blocklistMqtt => Layout.session ++ Layout.blocklistMqtt
  | .blocklistNfs => Layout.session ++ Layout.blocklistNfs
  | .blocklistRadius => Layout.session ++ Layout.blocklistRadius
  | .blocklistBootp => Layout.session ++ Layout.blocklistBootp
  | .blocklistDhcp => Layout.session ++ Layout.blocklistDhcp
  | .blocklistDceRpc => Layout.session ++ Layout.blocklistDceRpc
  | .anyEvent => []
  | .anySingleHost => []
  | .anySession => Layout.session
  | .anyHttpSession => Layout.session ++ Layout.httpSession
  | .anyDns => Layout.session ++ Layout.dnsExchange
  | .anyFtp => Layout.session ++ Layout.ftpSession
  | .anyLdap => Layout.session ++ Layout.ldapOperation

end Detection

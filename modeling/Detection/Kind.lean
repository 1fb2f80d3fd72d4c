import Detection.Field

/-! # Event kinds: the closed set of detections and the fields of each -/

namespace Detection

namespace Fields

/-! ## Fields that kinds share -/

def core : List Field :=
  [.time "time", .required .text "sensor", .required .integer "proto",
    .required .number "confidence",
    { name := "category", type := .category, default := some .none },
    .optional (.sequence .score) "triage_scores"]

def session : List Field :=
  [.time "start_time", .integer "duration", .integer "orig_pkts", .integer "resp_pkts",
    .integer "orig_l2_bytes", .integer "resp_l2_bytes"]

def httpSession : List Field :=
  [.text "method", .text "host", .text "uri", .text "referer", .text "version", .text "user_agent",
    .integer "request_len", .integer "response_len", .integer "status_code", .text "status_msg",
    .text "username", .text "password", .text "cookie", .text "content_encoding",
    .text "content_type", .text "cache_control", .texts "filenames", .texts "mime_types",
    .payload "body", .text "state"]

def dnsExchange : List Field :=
  [.text "query", .texts "answer", .integer "trans_id", .integer "rtt", .integer "qclass",
    .integer "qtype", .integer "rcode", .flag "aa_flag", .flag "tc_flag", .flag "rd_flag",
    .flag "ra_flag", .integers "ttl"]

def ftpSession : List Field :=
  [.text "user", .text "password",
    { name := "commands", type := .sequence .command, default := some (.tuple []) }]

def ldapOperation : List Field :=
  [.integer "message_id", .integer "version", .texts "opcode", .texts "result",
    .texts "diagnostic_message", .texts "object", .texts "argument"]

def period : List Field := [.time "start_time", .time "end_time"]

/-! ## Fields of one kind -/

def blocklistConn : List Field :=
  [.text "conn_state", .optional .text "service", .integer "orig_bytes", .integer "resp_bytes"]

def networkThreat : List Field :=
  [.text "service", .text "content", .text "db_name", .required .integer "rule_id",
    .text "matched_to", .optional .integer "cluster_id", .text "attack_kind"]

def httpThreat : List Field :=
  [.text "db_name", .required .integer "rule_id", .text "matched_to",
    .optional .integer "cluster_id", .text "attack_kind"]

def cryptocurrencyMiningPool : List Field :=
  [.texts "coins"]

def ftpBruteForce : List Field :=
  [.texts "user_list", .time "start_time", .time "end_time", .flag "is_internal"]

def ldapBruteForce : List Field :=
  [{ name := "user_pw_list", type := .sequence .textPair, default := some (.tuple []) },
    .time "start_time", .time "end_time"]

def blocklistRdp : List Field :=
  [.text "cookie"]

def blocklistTls : List Field :=
  [.text "server_name", .text "alpn_protocol", .text "ja3", .text "version",
    .integers "client_cipher_suites", .integers "client_extensions", .integer "cipher",
    .integers "extensions", .text "ja3s", .text "serial", .text "subject_country",
    .text "subject_org_name", .text "subject_common_name", .integer "validity_not_before",
    .integer "validity_not_after", .text "subject_alt_name", .text "issuer_country",
    .text "issuer_org_name", .text "issuer_org_unit_name", .text "issuer_common_name",
    .integer "last_alert"]

def blocklistSmtp : List Field :=
  [.text "mailfrom", .text "date", .text "from_", .text "to", .text "subject", .text "agent",
    .text "state"]

def blocklistSsh : List Field :=
  [.text "client", .text "server", .text "cipher_alg", .text "mac_alg", .text "compression_alg",
    .text "kex_alg", .text "host_key_alg", .text "hassh_algorithms", .text "hassh",
    .text "hassh_server_algorithms", .text "hassh_server", .text "client_shka", .text "server_shka"]

def blocklistKerberos : List Field :=
  [.integer "client_time", .integer "server_time", .integer "error_code", .text "client_realm",
    .integer "cname_type", .texts "client_name", .text "realm", .integer "sname_type",
    .texts "service_name"]

def blocklistNtlm : List Field :=
  [.text "protocol", .text "username", .text "hostname", .text "domainname", .text "success"]

def blocklistSmb : List Field :=
  [.integer "command", .text "path", .text "service", .text "file_name", .integer "file_size",
    .integer "resource_type", .integer "fid", .integer "create_time", .integer "access_time",
    .integer "write_time", .integer "change_time"]

def blocklistMqtt : List Field :=
  [.text "protocol", .integer "version", .text "client_id", .integer "connack_reason",
    .texts "subscribe", .integers "suback_reason"]

def blocklistNfs : List Field :=
  [.texts "read_files", .texts "write_files"]

def blocklistRadius : List Field :=
  [.integer "id", .integer "code", .integer "resp_code", .text "auth", .text "resp_auth",
    .payload "user_name", .payload "user_passwd", .payload "chap_passwd", .address "nas_ip",
    .integer "nas_port", .payload "state", .payload "nas_id", .integer "nas_port_type",
    .text "message"]

def blocklistBootp : List Field :=
  [.integer "op", .integer "htype", .integer "hops", .integer "xid", .address "ciaddr",
    .address "yiaddr", .address "siaddr", .address "giaddr",
    .payload "chaddr", .text "sname", .text "file"]

def blocklistDhcp : List Field :=
  [.integer "msg_type", .address "ciaddr", .address "yiaddr", .address "siaddr", .address "giaddr",
    .address "subnet_mask", .addresses "router", .addresses "domain_name_server",
    .address "req_ip_addr", .integer "lease_time", .address "server_id", .integers "param_req_list",
    .text "message", .integer "renewal_time", .integer "rebinding_time",
    .payload "class_id", .integer "client_id_type", .payload "client_id"]

def blocklistDceRpc : List Field :=
  [.integer "rtt", .text "named_pipe", .text "endpoint", .text "operation"]

end Fields

/-! ## Sides -/

/-- What a side of an event is made of: one host and port, one host with several ports, or many
hosts. -/
inductive SideShape where
  | single
  | multiPort
  | group
  deriving DecidableEq, Repr

def SideShape.fields (shape : SideShape) (side : String) : List Field :=
  match shape with
  | .single =>
    [.required .address (side ++ "_addr"), .optional .integer (side ++ "_port"),
      { name := side ++ "_country_code", type := .country, default := some .none }]
  | .multiPort =>
    [.required .address (side ++ "_addr"),
      { name := side ++ "_ports", type := .optional (.sequence .integer),
        default := some (.tuple []) },
      { name := side ++ "_country_code", type := .country, default := some .none }]
  | .group =>
    [.required (.sequence .address) (side ++ "_addrs"),
      .required (.sequence .integer) (side ++ "_ports"),
      .required (.sequence .country) (side ++ "_country_codes")]

structure Sides where
  originator : SideShape
  responder : SideShape
  deriving DecidableEq, Repr

def Sides.fields (s : Sides) : List Field := s.originator.fields "orig" ++ s.responder.fields "resp"

/-! ## Kinds -/

/-- The kinds of events. The last seven are the general ones the others specialise. -/
inductive Kind where
  | portScan
  | multiHostPortScan
  | externalDdos
  | blocklistConn
  | networkThreat
  | httpThreat
  | domainGenerationAlgorithm
  | nonBrowser
  | blocklistHttp
  | repeatedHttpSessions
  | dnsCovertChannel
  | lockyRansomware
  | cryptocurrencyMiningPool
  | blocklistDns
  | ftpBruteForce
  | ftpPlainText
  | blocklistFtp
  | ldapBruteForce
  | ldapPlainText
  | blocklistLdap
  | rdpBruteForce
  | blocklistRdp
  | blocklistTls
  | blocklistSmtp
  | blocklistSsh
  | blocklistKerberos
  | blocklistNtlm
  | blocklistSmb
  | blocklistMqtt
  | blocklistNfs
  | blocklistRadius
  | blocklistBootp
  | blocklistDhcp
  | blocklistDceRpc
  | anyEvent
  | anySingleHost
  | anySession
  | anyHttpSession
  | anyDns
  | anyFtp
  | anyLdap
  deriving DecidableEq, Repr

namespace Kind

def registered : List Kind :=
  [.portScan, .multiHostPortScan, .externalDdos, .blocklistConn, .networkThreat, .httpThreat,
    .domainGenerationAlgorithm, .nonBrowser, .blocklistHttp, .repeatedHttpSessions,
    .dnsCovertChannel, .lockyRansomware, .cryptocurrencyMiningPool, .blocklistDns, .ftpBruteForce,
    .ftpPlainText, .blocklistFtp, .ldapBruteForce, .ldapPlainText, .blocklistLdap, .rdpBruteForce,
    .blocklistRdp, .blocklistTls, .blocklistSmtp, .blocklistSsh, .blocklistKerberos,
    .blocklistNtlm, .blocklistSmb, .blocklistMqtt, .blocklistNfs, .blocklistRadius,
    .blocklistBootp, .blocklistDhcp, .blocklistDceRpc]

def general : List Kind :=
  [.anyEvent, .anySingleHost, .anySession, .anyHttpSession, .anyDns, .anyFtp, .anyLdap]

def name : Kind → String
  | .portScan => "PortScan"
  | .multiHostPortScan => "MultiHostPortScan"
  | .externalDdos => "ExternalDdos"
  | .blocklistConn => "BlocklistConn"
  | .networkThreat => "NetworkThreat"
  | .httpThreat => "HttpThreat"
  | .domainGenerationAlgorithm => "DomainGenerationAlgorithm"
  | .nonBrowser => "NonBrowser"
  | .blocklistHttp => "BlocklistHttp"
  | .repeatedHttpSessions => "RepeatedHttpSessions"
  | .dnsCovertChannel => "DnsCovertChannel"
  | .lockyRansomware => "LockyRansomware"
  | .cryptocurrencyMiningPool => "CryptocurrencyMiningPool"
  | .blocklistDns => "BlocklistDns"
  | .ftpBruteForce => "FtpBruteForce"
  | .ftpPlainText => "FtpPlainText"
  | .blocklistFtp => "BlocklistFtp"
  | .ldapBruteForce => "LdapBruteForce"
  | .ldapPlainText => "LdapPlainText"
  | .blocklistLdap => "BlocklistLdap"
  | .rdpBruteForce => "RdpBruteForce"
  | .blocklistRdp => "BlocklistRdp"
  | .blocklistTls => "BlocklistTls"
  | .blocklistSmtp => "BlocklistSmtp"
  | .blocklistSsh => "BlocklistSsh"
  | .blocklistKerberos => "BlocklistKerberos"
  | .blocklistNtlm => "BlocklistNtlm"
  | .blocklistSmb => "BlocklistSmb"
  | .blocklistMqtt => "BlocklistMqtt"
  | .blocklistNfs => "BlocklistNfs"
  | .blocklistRadius => "BlocklistRadius"
  | .blocklistBootp => "BlocklistBootp"
  | .blocklistDhcp => "BlocklistDhcp"
  | .blocklistDceRpc => "BlocklistDceRpc"
  | .anyEvent => "SecurityEvent"
  | .anySingleHost => "SingleHostEvent"
  | .anySession => "SessionEvent"
  | .anyHttpSession => "HttpSessionEvent"
  | .anyDns => "DnsEvent"
  | .anyFtp => "FtpEvent"
  | .anyLdap => "LdapEvent"

def description : Kind → String
  | .portScan => "port scan"
  | .multiHostPortScan => "multi host port scan"
  | .externalDdos => "external ddos"
  | .blocklistConn => "blocklist conn"
  | .networkThreat => "network threat"
  | .httpThreat => "http threat"
  | .domainGenerationAlgorithm => "dga"
  | .nonBrowser => "non browser"
  | .blocklistHttp => "blocklist http"
  | .repeatedHttpSessions => "repeated http sessions"
  | .dnsCovertChannel => "dns covert channel"
  | .lockyRansomware => "locky ransomware"
  | .cryptocurrencyMiningPool => "cryptocurrency mining pool"
  | .blocklistDns => "blocklist dns"
  | .ftpBruteForce => "ftp brute force"
  | .ftpPlainText => "ftp plain text"
  | .blocklistFtp => "blocklist ftp"
  | .ldapBruteForce => "ldap brute force"
  | .ldapPlainText => "ldap plain text"
  | .blocklistLdap => "blocklist ldap"
  | .rdpBruteForce => "rdp brute force"
  | .blocklistRdp => "blocklist rdp"
  | .blocklistTls => "blocklist tls"
  | .blocklistSmtp => "blocklist smtp"
  | .blocklistSsh => "blocklist ssh"
  | .blocklistKerberos => "blocklist kerberos"
  | .blocklistNtlm => "blocklist ntlm"
  | .blocklistSmb => "blocklist smb"
  | .blocklistMqtt => "blocklist mqtt"
  | .blocklistNfs => "blocklist nfs"
  | .blocklistRadius => "blocklist radius"
  | .blocklistBootp => "blocklist bootp"
  | .blocklistDhcp => "blocklist dhcp"
  | .blocklistDceRpc => "blocklist dcerpc"
  | .anyEvent | .anySingleHost | .anySession | .anyHttpSession | .anyDns | .anyFtp | .anyLdap =>
    "security event"

def level (_ : Kind) : Level := .medium

def learningMethod (_ : Kind) : LearningMethod := .semiSupervised

/-- The most general kind says nothing about its sides. -/
def sides? : Kind → Option Sides
  | .anyEvent => none
  | .portScan => some ⟨.single, .multiPort⟩
  | .multiHostPortScan => some ⟨.group, .group⟩
  | .externalDdos => some ⟨.group, .single⟩
  | .rdpBruteForce => some ⟨.single, .group⟩
  | _ => some ⟨.single, .single⟩

/-- The fields a kind declares next to the core and its sides, inherited ones first. -/
def details : Kind → List Field
  | .portScan => Fields.period
  | .multiHostPortScan => Fields.period
  | .externalDdos => Fields.period
  | .blocklistConn => Fields.session ++ Fields.blocklistConn
  | .networkThreat => Fields.session ++ Fields.networkThreat
  | .httpThreat => Fields.session ++ Fields.httpSession ++ Fields.httpThreat
  | .domainGenerationAlgorithm => Fields.session ++ Fields.httpSession
  | .nonBrowser => Fields.session ++ Fields.httpSession
  | .blocklistHttp => Fields.session ++ Fields.httpSession
  | .repeatedHttpSessions => Fields.period
  | .dnsCovertChannel => Fields.session ++ Fields.dnsExchange
  | .lockyRansomware => Fields.session ++ Fields.dnsExchange
  | .cryptocurrencyMiningPool =>
    Fields.session ++ Fields.dnsExchange ++ Fields.cryptocurrencyMiningPool
  | .blocklistDns => Fields.session ++ Fields.dnsExchange
  | .ftpBruteForce => Fields.ftpBruteForce
  | .ftpPlainText => Fields.session ++ Fields.ftpSession
  | .blocklistFtp => Fields.session ++ Fields.ftpSession
  | .ldapBruteForce => Fields.ldapBruteForce
  | .ldapPlainText => Fields.session ++ Fields.ldapOperation
  | .blocklistLdap => Fields.session ++ Fields.ldapOperation
  | .rdpBruteForce => Fields.period
  | .blocklistRdp => Fields.session ++ Fields.blocklistRdp
  | .blocklistTls => Fields.session ++ Fields.blocklistTls
  | .blocklistSmtp => Fields.session ++ Fields.blocklistSmtp
  | .blocklistSsh => Fields.session ++ Fields.blocklistSsh
  | .blocklistKerberos => Fields.session ++ Fields.blocklistKerberos
  | .blocklistNtlm => Fields.session ++ Fields.blocklistNtlm
  | .blocklistSmb => Fields.session ++ Fields.blocklistSmb
  | .blocklistMqtt => Fields.session ++ Fields.blocklistMqtt
  | .blocklistNfs => Fields.session ++ Fields.blocklistNfs
  | .blocklistRadius => Fields.session ++ Fields.blocklistRadius
  | .blocklistBootp => Fields.session ++ Fields.blocklistBootp
  | .blocklistDhcp => Fields.session ++ Fields.blocklistDhcp
  | .blocklistDceRpc => Fields.session ++ Fields.blocklistDceRpc
  | .anyEvent => []
  | .anySingleHost => []
  | .anySession => Fields.session
  | .anyHttpSession => Fields.session ++ Fields.httpSession
  | .anyDns => Fields.session ++ Fields.dnsExchange
  | .anyFtp => Fields.session ++ Fields.ftpSession
  | .anyLdap => Fields.session ++ Fields.ldapOperation

def sideFields (k : Kind) : List Field :=
  match k.sides? with
  | some s => s.fields
  | none => []

def fields (k : Kind) : List Field := Fields.core ++ k.sideFields ++ k.details

def fieldNames (k : Kind) : List String := k.fields.map Field.name

/-! ## Look-up -/

def aliases : List (String × String) := [("Dga", "DomainGenerationAlgorithm")]

/-- A kind by its name, a short name or its description. -/
def find? (text : String) : Option Kind :=
  let name := (aliases.lookup text).getD text
  (registered.find? (·.name = name)).or (registered.find? (·.description = name))

def ofName? (name : String) : Option Kind := (registered ++ general).find? (·.name = name)

end Kind

end Detection

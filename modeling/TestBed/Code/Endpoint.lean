import TestBed.Code.Udp
import TestBed.Code.Udt
import TestBed.Code.Utp

/-!
# The endpoint's threads

`tb_client` and `tb_server` of `tb_endpoint.c`, which dispatch on the protocol and the endpoint type,
and `tb_start`. What `tb_start` does while the endpoint's thread runs is to monitor it: a tick is a
step of the environment. CPU affinities are left out.
-/

namespace TestBed.Code

open Program

/-- `if(listener->e_type == t) p else q` -/
def byType (t : EndpointType) (p q : Stmt) : Stmt := .ite (.eType t) p q

def tbClient : Stmt := .call (.block [
  .op .createTestFile,
  .ite (.prot .utp) (byType .client tbUtpClient tbUtpMClient)
    (.ite (.or (.prot .tcp) (.prot .dccp)) (byType .client tbStreamClient tbStreamMClient)
      (.ite (.prot .udp) (byType .client tbUdpClient tbUdpMClient)
        (.ite (.prot .udt) (byType .client tbUdtClient tbUdtMClient)
          tbAbort))),
  tbExit])

def tbServer : Stmt := .call (.block [
  cond (.not (.prot .utp)) tbBind,
  .ite (.prot .utp) tbUtpServer
    (.ite (.prot .udp) (byType .server tbUdpServer tbUdpMServer)
      (.ite (.or (.prot .tcp) (.prot .dccp)) (byType .server tbStreamServer tbStreamMServer)
        (.ite (.prot .udt) (byType .server tbUdtServer tbUdtMServer)
          tbAbort))),
  tbExit])

/-- `listener->e_type == SERVER || listener->e_type == mSERVER` -/
def isServer : Test := .or (.eType .server) (.eType .mServer)

/-- `tb_start` with `d_exit` set. -/
def tbStart : Stmt := .call (.block [
  .op .publish,
  tbResolveAddress,
  cond (.not (.prot .utp)) tbCreateSocket,
  .op (.call none .setSockOpt),
  cond .failed tbAbort,
  .ite isServer (.thread tbServer) (.thread tbClient),
  tbDestroyListener])

end TestBed.Code
